import Spice.Lz.Compress

namespace Spice
namespace Lz

/-!
# The search for a match

An entry of the hash table may be stale: all that is known of it is that it
points into the image, before the current pixel and at least four pixels
before the end of its segment.  What the compressor compares is enough to show
that a match it writes repeats pixels of the image, and that its length is
never coded as zero.
-/

section Search

variable {Pixel : Type}

/-- Being the same pixel is an equivalence. -/
structure PixelOps.Lawful (ops : PixelOps Pixel) : Prop where
  refl : forall p, ops.samePixel p p = true
  symm : forall {p q}, ops.samePixel p q = true -> ops.samePixel q p = true
  trans : forall {p q r}, ops.samePixel p q = true -> ops.samePixel q r = true -> ops.samePixel p r = true

/-- The segment lies in the image at its `size_delta`. -/
def LzImageSegment.IsPart (seg : LzImageSegment Pixel) (image : List Pixel) : Prop :=
  Exists fun after => image.drop seg.sizeDelta = seg.lines ++ after

theorem LzImageSegment.IsPart.size {seg : LzImageSegment Pixel} {image : List Pixel} (part : seg.IsPart image)
    (some : seg.lines ≠ []) : seg.sizeDelta + seg.lines.length ≤ image.length := by
  rcases part with ⟨after, split⟩
  have total := congrArg List.length split
  have positive := List.length_pos_iff.mpr some
  rw [List.length_drop, List.length_append] at total
  omega

variable {template : Template} {ops : PixelOps Pixel}

/-- The pixels at two places of the image are the same. -/
def SameAt (ops : PixelOps Pixel) (image : List Pixel) (one two : Nat) : Prop :=
  forall p q, image[one]? = some p -> image[two]? = some q -> ops.samePixel p q = true

/-- Some pixels from a place on are those at a distance before. -/
def Repeats (ops : PixelOps Pixel) (image : List Pixel) (place distance count : Nat) : Prop :=
  forall step, step < count -> SameAt ops image (place - distance + step) (place + step)

theorem Repeats.mono {image : List Pixel} {place distance count less : Nat}
    (repeats : Repeats ops image place distance count) (fewer : less ≤ count) : Repeats ops image place distance less :=
  fun step below => repeats step (Nat.lt_of_lt_of_le below fewer)

theorem Repeats.succ {image : List Pixel} {place distance count : Nat}
    (repeats : Repeats ops image place distance count)
    (last : SameAt ops image (place - distance + count) (place + count)) :
    Repeats ops image place distance (count + 1) := by
  intro step below
  rcases Nat.lt_succ_iff_lt_or_eq.mp below with before | same
  · exact repeats step before
  · exact same ▸ last

variable [Inhabited Pixel] {image : List Pixel} {seg refSeg : LzImageSegment Pixel}

theorem LzImageSegment.IsPart.pixel (part : seg.IsPart image) {offset : Nat} (inside : offset < seg.lines.length) :
    image[seg.pixelId offset]? = some (seg.pixel offset) := by
  rcases part with ⟨after, split⟩
  have found : (image.drop seg.sizeDelta)[offset]? = some (seg.pixel offset) := by
    rw [split, List.getElem?_append_left inside, LzImageSegment.pixel, List.getD_eq_getElem?_getD,
      List.getElem?_eq_getElem inside]
    rfl
  rw [List.getElem?_drop, Nat.add_comm] at found
  exact found

theorem sameAt_of_pixels (part : seg.IsPart image) (refPart : refSeg.IsPart image) {ref ip : Nat}
    (refInside : ref < refSeg.lines.length) (inside : ip < seg.lines.length)
    (same : ops.samePixel (refSeg.pixel ref) (seg.pixel ip) = true) :
    SameAt ops image (refSeg.pixelId ref) (seg.pixelId ip) := by
  intro p q first second
  rw [refPart.pixel refInside] at first
  rw [part.pixel inside] at second
  cases first
  cases second
  exact same

/-- The same pixels in two segments repeat in the image. -/
theorem repeats_of_samePixels (part : seg.IsPart image) (refPart : refSeg.IsPart image) {ref ip : Nat}
    (count : Nat) (refInside : ref + count ≤ refSeg.lines.length) (inside : ip + count ≤ seg.lines.length)
    {distance : Nat} (aligned : refSeg.pixelId ref + distance = seg.pixelId ip)
    (same : samePixels ops refSeg ref seg ip count = true) : Repeats ops image (seg.pixelId ip) distance count := by
  induction count generalizing ref ip with
  | zero =>
      intro step below
      exact absurd below (Nat.not_lt_zero step)
  | succ count ih =>
      simp only [samePixels, Bool.and_eq_true] at same
      have first := sameAt_of_pixels part refPart (show ref < refSeg.lines.length by omega)
        (show ip < seg.lines.length by omega) same.1
      have rest := ih (show ref + 1 + count ≤ refSeg.lines.length by omega)
        (show ip + 1 + count ≤ seg.lines.length by omega)
        (show refSeg.pixelId (ref + 1) + distance = seg.pixelId (ip + 1) by
          simp only [LzImageSegment.pixelId] at aligned ⊢
          omega) same.2
      simp only [LzImageSegment.pixelId] at aligned first rest ⊢
      intro step below
      cases step with
      | zero =>
          rw [show ip + seg.sizeDelta - distance + 0 = ref + refSeg.sizeDelta by omega]
          exact first
      | succ step =>
          have later := rest step (by omega)
          rw [show ip + 1 + seg.sizeDelta - distance + step = ip + seg.sizeDelta - distance + (step + 1) by omega,
            show ip + 1 + seg.sizeDelta + step = ip + seg.sizeDelta + (step + 1) by omega] at later
          exact later

/-- A match is extended while the pixels are the same. -/
theorem extendMatch_spec (part : seg.IsPart image) (refPart : refSeg.IsPart image) {anchor distance ipBound : Nat}
    (bound : ipBound ≤ seg.lines.length) (fuel ref ip : Nat) (ahead : anchor ≤ ip)
    (aligned : refSeg.pixelId ref + distance = seg.pixelId ip) (before : distance ≤ seg.pixelId anchor)
    (repeats : Repeats ops image (seg.pixelId anchor) distance (ip - anchor)) :
    ip ≤ extendMatch ops refSeg seg ipBound fuel ref ip ∧
      extendMatch ops refSeg seg ipBound fuel ref ip ≤ max ip ipBound ∧
      Repeats ops image (seg.pixelId anchor) distance (extendMatch ops refSeg seg ipBound fuel ref ip - 1 - anchor) ∧
      (fuel ≠ 0 -> ip < ipBound -> ref < refSeg.lines.length ->
        ip < extendMatch ops refSeg seg ipBound fuel ref ip) := by
  induction fuel generalizing ref ip with
  | zero => exact ⟨Nat.le_refl _, Nat.le_max_left _ _, repeats.mono (by simp only [extendMatch]; omega),
      fun some => absurd rfl some⟩
  | succ fuel ih =>
      unfold extendMatch
      split
      · next inside =>
          split
          · next same =>
              have last := sameAt_of_pixels part refPart inside.2 (show ip < seg.lines.length by omega) same
              have more : Repeats ops image (seg.pixelId anchor) distance (ip + 1 - anchor) := by
                rw [show ip + 1 - anchor = ip - anchor + 1 by omega]
                refine repeats.succ ?_
                simp only [LzImageSegment.pixelId] at aligned before last ⊢
                rw [show anchor + seg.sizeDelta - distance + (ip - anchor) = ref + refSeg.sizeDelta by omega,
                  show anchor + seg.sizeDelta + (ip - anchor) = ip + seg.sizeDelta by omega]
                exact last
              rcases ih (ref + 1) (ip + 1) (by omega) (by
                simp only [LzImageSegment.pixelId] at aligned ⊢
                omega) more with ⟨further, most, all, -⟩
              exact ⟨by omega, by omega, all, fun _ _ _ => by omega⟩
          · next differ =>
              exact ⟨by omega, by omega, repeats.mono (by omega), fun _ _ _ => by omega⟩
      · next outside =>
          exact ⟨Nat.le_refl _, Nat.le_max_left _ _, repeats.mono (by omega),
            fun _ below within => absurd ⟨below, within⟩ outside⟩

/-- All pixels between two places are the same as a given one. -/
def AllSame (ops : PixelOps Pixel) (image : List Pixel) (x : Pixel) (low high : Nat) : Prop :=
  forall place p, low ≤ place -> place < high -> image[place]? = some p -> ops.samePixel p x = true

/-- A run is extended while the pixel is the same. -/
theorem extendRun_spec (refPart : refSeg.IsPart image) {x : Pixel} {low : Nat} (ipBound fuel ref ip : Nat)
    (same : AllSame ops image x low (refSeg.pixelId ref)) : ip ≤ extendRun ops refSeg x ipBound fuel ref ip ∧
      extendRun ops refSeg x ipBound fuel ref ip ≤ max ip ipBound ∧
      AllSame ops image x low (refSeg.pixelId ref + (extendRun ops refSeg x ipBound fuel ref ip - ip)) ∧
      (fuel ≠ 0 -> ip < ipBound -> ref < refSeg.lines.length -> ops.samePixel (refSeg.pixel ref) x = true ->
        ip < extendRun ops refSeg x ipBound fuel ref ip) := by
  have stay : AllSame ops image x low (refSeg.pixelId ref + (ip - ip)) := by
    rw [Nat.sub_self]
    exact same
  induction fuel generalizing ref ip with
  | zero => exact ⟨Nat.le_refl _, Nat.le_max_left _ _, stay, fun some => absurd rfl some⟩
  | succ fuel ih =>
      unfold extendRun
      split
      · next inside =>
          split
          · next equal =>
              have more : AllSame ops image x low (refSeg.pixelId (ref + 1)) := by
                intro place p above below found
                have places : place < refSeg.pixelId ref ∨ place = refSeg.pixelId ref := by
                  simp only [LzImageSegment.pixelId] at below ⊢
                  omega
                rcases places with before | here
                · exact same place p above before found
                · rw [here, refPart.pixel inside.2] at found
                  cases found
                  exact equal
              rcases ih (ref + 1) (ip + 1) more (by rw [Nat.sub_self]; exact more) with ⟨further, most, all, -⟩
              refine ⟨by omega, by omega, ?_, fun _ _ _ _ => by omega⟩
              rw [show refSeg.pixelId ref + (extendRun ops refSeg x ipBound fuel (ref + 1) (ip + 1) - ip) =
                refSeg.pixelId (ref + 1) + (extendRun ops refSeg x ipBound fuel (ref + 1) (ip + 1) - (ip + 1)) by
                  simp only [LzImageSegment.pixelId]
                  omega]
              exact all
          · next differ =>
              exact ⟨Nat.le_refl _, Nat.le_max_left _ _, stay, fun _ _ _ equal => absurd equal differ⟩
      · next outside =>
          exact ⟨Nat.le_refl _, Nat.le_max_left _ _, stay,
            fun _ below within => absurd ⟨below, within⟩ outside⟩

/-- A match before it is extended. -/
structure Candidate (ops : PixelOps Pixel) (image : List Pixel) (seg : LzImageSegment Pixel) (anchor : Nat)
    (m : Match Pixel) : Prop where
  part : m.refSeg.IsPart image
  aligned : m.refSeg.pixelId m.ref + m.distance = seg.pixelId m.ip
  positive : 1 ≤ m.distance
  inRange : m.distance < maxFarDistance
  earlier : m.distance ≤ seg.pixelId anchor
  ahead : anchor < m.ip
  bound : m.ip + boundOffset ≤ seg.lines.length
  repeats : Repeats ops image (seg.pixelId anchor) m.distance (m.ip - anchor)

/-- A match as it is written. -/
structure Found (template : Template) (ops : PixelOps Pixel) (image : List Pixel) (seg : LzImageSegment Pixel)
    (anchor : Nat) (m : Match Pixel) : Prop where
  positive : 1 ≤ m.distance
  inRange : m.distance < maxFarDistance
  earlier : m.distance ≤ seg.pixelId anchor
  long : anchor + 4 ≤ matchEnd ops seg m + template.lenBias
  bound : matchEnd ops seg m + boundOffset ≤ seg.lines.length
  repeats : Repeats ops image (seg.pixelId anchor) m.distance (matchEnd ops seg m - 1 - anchor)

/-- A candidate is extended to a match. -/
theorem Candidate.extend {anchor : Nat} {m : Match Pixel} (candidate : Candidate ops image seg anchor m)
    (lawful : ops.Lawful) (part : seg.IsPart image) :
    m.ip ≤ matchEnd ops seg m ∧ matchEnd ops seg m + boundOffset ≤ seg.lines.length ∧
      Repeats ops image (seg.pixelId anchor) m.distance (matchEnd ops seg m - 1 - anchor) ∧
      (m.ip + boundOffset < seg.lines.length -> m.ref < m.refSeg.lines.length -> m.ip < matchEnd ops seg m) := by
  have bound := candidate.bound
  have ahead := candidate.ahead
  have rounds : seg.lines.length ≠ 0 := by omega
  unfold matchEnd
  simp only
  split
  · next run =>
      have aligned := candidate.aligned
      have earlier := candidate.earlier
      have start : AllSame ops image (m.refSeg.pixel m.ref) (m.refSeg.pixelId m.ref) (m.refSeg.pixelId m.ref) :=
        fun place _ above below _ => absurd above (Nat.not_le_of_lt below)
      rcases extendRun_spec candidate.part (seg.lines.length - boundOffset) seg.lines.length m.ref m.ip start
        with ⟨further, most, all, progress⟩
      refine ⟨further, by omega, ?_, fun below within => progress rounds (by omega) within (lawful.refl _)⟩
      rw [run] at aligned earlier ⊢
      generalize extendRun ops m.refSeg (m.refSeg.pixel m.ref) (seg.lines.length - boundOffset) seg.lines.length m.ref
        m.ip = last at further all
      intro step below
      rcases Nat.lt_or_ge step (m.ip - anchor) with known | later
      · have first := candidate.repeats step known
        rw [run] at first
        exact first
      · -- both pixels lie behind the first one of the reference
        simp only [LzImageSegment.pixelId] at aligned earlier all ⊢
        intro p q one two
        exact lawful.trans (all _ p (by omega) (by omega) one) (lawful.symm (all _ q (by omega) (by omega) two))
  · rcases extendMatch_spec part candidate.part (Nat.sub_le seg.lines.length boundOffset)
      seg.lines.length m.ref m.ip (Nat.le_of_lt ahead) candidate.aligned candidate.earlier candidate.repeats with
      ⟨further, most, all, progress⟩
    exact ⟨further, by omega, all, fun below within => progress rounds (by omega) within⟩

/-- A run is a match at distance 1. -/
theorem found_run (lawful : ops.Lawful) (part : seg.IsPart image) {anchor : Nat}
    (inside : anchor + limitOffset < seg.lines.length) (run : isRun ops seg anchor = true) :
    Found template ops image seg anchor ⟨1, seg, anchor + 2, anchor + 3⟩ := by
  unfold limitOffset at inside
  simp only [isRun, Bool.and_eq_true, decide_eq_true_eq] at run
  rcases run with ⟨⟨⟨positive, first⟩, second⟩, third⟩
  have candidate : Candidate ops image seg anchor ⟨1, seg, anchor + 2, anchor + 3⟩ := by
    refine ⟨part, ?_, Nat.le_refl 1, show 1 < maxFarDistance by decide, ?_, ?_, ?_, ?_⟩
    · simp only [LzImageSegment.pixelId]
      omega
    · simp only [LzImageSegment.pixelId]
      omega
    · show anchor < anchor + 3
      omega
    · show anchor + 3 + 2 ≤ seg.lines.length
      omega
    · have same : samePixels ops seg (anchor - 1) seg anchor 3 = true := by
        simp only [samePixels, Nat.sub_add_cancel positive, first, second, third, Bool.and_self]
      have repeats := repeats_of_samePixels part part 3 (show anchor - 1 + 3 ≤ seg.lines.length by omega)
        (show anchor + 3 ≤ seg.lines.length by omega) (show seg.pixelId (anchor - 1) + 1 = seg.pixelId anchor by
          simp only [LzImageSegment.pixelId]
          omega) same
      exact repeats.mono (by simp only; omega)
  rcases candidate.extend lawful part with ⟨further, bound, repeats, progress⟩
  have longer := progress (show anchor + 3 + 2 < seg.lines.length by omega)
      (show anchor + 2 < seg.lines.length by omega)
  simp only at longer
  exact ⟨candidate.positive, candidate.inRange, candidate.earlier, by omega, bound, repeats⟩

structure HashEntry.Points (entry : HashEntry Pixel) (image : List Pixel) (position : Nat) : Prop where
  part : entry.imageSeg.IsPart image
  inside : entry.ref + 4 ≤ entry.imageSeg.lines.length
  earlier : entry.imageSeg.pixelId entry.ref < position

/-- A match at an entry of the hash table. -/
theorem found_entry (lawful : ops.Lawful) (part : seg.IsPart image) {anchor : Nat}
    (inside : anchor + limitOffset < seg.lines.length) {entry : HashEntry Pixel}
    (points : entry.Points image (seg.pixelId anchor)) {m : Match Pixel}
    (found : findMatch template ops entry seg anchor = some m) : Found template ops image seg anchor m := by
  unfold limitOffset at inside
  have earlier := points.earlier
  have refInside := points.inside
  have few : template.minMatch ≤ 3 := by cases template <;> decide
  have aligned : entry.imageSeg.pixelId entry.ref + (seg.pixelId anchor - entry.imageSeg.pixelId entry.ref) =
      seg.pixelId anchor := Nat.add_sub_cancel' (Nat.le_of_lt earlier)
  unfold findMatch at found
  simp only at found
  split at found
  · cases found
  · next near =>
      split at found
      · cases found
      · next same =>
          have repeats := repeats_of_samePixels part points.part template.minMatch (by omega) (by omega) aligned
            (by simpa using same)
          split at found
          · cases found
            -- one more pixel is looked at, since four follow the reference
            have candidate : Candidate ops image seg anchor ⟨seg.pixelId anchor - entry.imageSeg.pixelId entry.ref,
                entry.imageSeg, entry.ref + template.minMatch, anchor + template.minMatch⟩ := by
              refine ⟨points.part, ?_, ?_, ?_, Nat.sub_le _ _, ?_, ?_, ?_⟩
              · simp only [LzImageSegment.pixelId] at aligned ⊢
                omega
              · simp only
                omega
              · simp only
                omega
              · show anchor < anchor + template.minMatch
                have some : 0 < template.minMatch := by cases template <;> decide
                omega
              · show anchor + template.minMatch + 2 ≤ seg.lines.length
                omega
              · exact repeats.mono (by simp only; omega)
            rcases candidate.extend lawful part with ⟨further, bound, all, progress⟩
            have longer := progress (show anchor + template.minMatch + 2 < seg.lines.length by omega)
              (show entry.ref + template.minMatch < entry.imageSeg.lines.length by omega)
            simp only at longer
            have enough : 4 ≤ template.minMatch + 1 + template.lenBias := by cases template <;> decide
            exact ⟨candidate.positive, candidate.inRange, candidate.earlier, by omega, bound, all⟩
          · split at found
            · cases found
            · next notBlocked =>
                split at found
                · cases found
                · next farSame =>
                    cases found
                    have farInside : entry.ref + template.minMatch + template.farMatch ≤
                        entry.imageSeg.lines.length := by
                      cases template with
                      | oneByte =>
                          have room : Not (entry.imageSeg.lines.length ≤ entry.ref + 3 + 1) :=
                            of_decide_eq_false (Bool.eq_false_iff.mpr notBlocked)
                          simp only [Template.minMatch, Template.farMatch]
                          omega
                      | rgb16 =>
                          simp only [Template.minMatch, Template.farMatch]
                          omega
                      | rgb =>
                          simp only [Template.minMatch, Template.farMatch]
                          omega
                    have sum : template.minMatch + template.farMatch ≤ 5 := by cases template <;> decide
                    have enough : 4 ≤ template.minMatch + template.farMatch + template.lenBias := by
                      cases template <;> decide
                    have far := repeats_of_samePixels part points.part template.farMatch farInside
                      (show anchor + template.minMatch + template.farMatch ≤ seg.lines.length by omega)
                      (show entry.imageSeg.pixelId (entry.ref + template.minMatch) +
                          (seg.pixelId anchor - entry.imageSeg.pixelId entry.ref) =
                          seg.pixelId (anchor + template.minMatch) by
                        simp only [LzImageSegment.pixelId] at aligned ⊢
                        omega) (by simpa using farSame)
                    have candidate : Candidate ops image seg anchor
                        ⟨seg.pixelId anchor - entry.imageSeg.pixelId entry.ref, entry.imageSeg,
                          entry.ref + template.minMatch + template.farMatch,
                          anchor + template.minMatch + template.farMatch⟩ := by
                      refine ⟨points.part, ?_, ?_, ?_, Nat.sub_le _ _, ?_, ?_, ?_⟩
                      · simp only [LzImageSegment.pixelId] at aligned ⊢
                        omega
                      · simp only
                        omega
                      · simp only
                        omega
                      · show anchor < anchor + template.minMatch + template.farMatch
                        have some : 0 < template.minMatch := by cases template <;> decide
                        omega
                      · show anchor + template.minMatch + template.farMatch + 2 ≤ seg.lines.length
                        omega
                      · intro step below
                        rcases Nat.lt_or_ge step template.minMatch with first | later
                        · exact repeats step first
                        · have second := far (step - template.minMatch) (by simp only at below; omega)
                          simp only [LzImageSegment.pixelId] at second earlier ⊢
                          rw [show anchor + template.minMatch + seg.sizeDelta -
                              (anchor + seg.sizeDelta - (entry.ref + entry.imageSeg.sizeDelta)) +
                              (step - template.minMatch) = anchor + seg.sizeDelta -
                              (anchor + seg.sizeDelta - (entry.ref + entry.imageSeg.sizeDelta)) + step by omega,
                            show anchor + template.minMatch + seg.sizeDelta + (step - template.minMatch) =
                              anchor + seg.sizeDelta + step by omega] at second
                          exact second
                    rcases candidate.extend lawful part with ⟨further, bound, all, -⟩
                    simp only at further
                    exact ⟨candidate.positive, candidate.inRange, candidate.earlier, by omega, bound, all⟩

end Search

end Lz
end Spice
