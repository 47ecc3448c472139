import Mathlib.Order.Monotone.Basic
import Mathlib.Tactic.IntervalCases
import Spice.Glz.DecoderWindow

namespace Spice
namespace Glz

open Lib SpiceGlzDecoderWindow

/-!
# Releasing images at the end of a decode

After an image is stored, `decode` looks at the image below the gap and
releases what that image no longer needs.  The gap loop does not compare ids,
the look-up wraps around while image 0 is missing, and clearing the window
keeps `oldest`.  Ids that stay within one table length of `oldest` make all of
this harmless: every id then has a slot of its own.
-/

/-- The part of `decode` after the pixels are decoded: store the image, then
release up to the head of the image below the gap. -/
def decodeRelease (w : SpiceGlzDecoderWindow) (img : GlzImage) : Option SpiceGlzDecoderWindow :=
  match w.glzDecoderWindowAdd img with
  | none => none
  | some w =>
      match w.images ((w.tailGap + 2 ^ 64 - 1) % 2 ^ 64 % w.nimages) with
      | none => some w
      | some image =>
          some (w.glzDecoderWindowRelease ((image.hdr.id + 2 ^ 64 - image.hdr.winHeadDist) % 2 ^ 64))

/-- The `win_head_dist` values of one server-side id sequence: the window head
never lies before image 0 and never moves back. -/
structure ServerSequence where
  dist : Nat -> Nat
  dist_le : forall id, dist id ≤ id
  head_mono : Monotone (fun id => id - dist id)

/-- A call on the window from outside: one image decoded, or the window
cleared because the ids restart. -/
inductive DecodeOp
  | decode (img : GlzImage)
  | clear

namespace DecodeOp

/-- The ids decoded since the last clear. -/
def decoded (past : List DecodeOp) : List Nat :=
  past.foldl (fun ids op =>
    match op with
    | decode img => img.hdr.id :: ids
    | clear => []) []

/-- The number of clears so far. -/
def epoch (past : List DecodeOp) : Nat :=
  past.foldl (fun count op =>
    match op with
    | decode _ => count
    | clear => count + 1) 0

@[simp] theorem decoded_decode (past : List DecodeOp) (img : GlzImage) :
    decoded (past ++ [decode img]) = img.hdr.id :: decoded past := by
  simp [decoded]

@[simp] theorem decoded_clear (past : List DecodeOp) : decoded (past ++ [clear]) = [] := by
  simp [decoded]

@[simp] theorem epoch_decode (past : List DecodeOp) (img : GlzImage) :
    epoch (past ++ [decode img]) = epoch past := by
  simp [epoch]

end DecodeOp

open DecodeOp

/-- One call; `none` when it crashes or never returns. -/
def decodeStep (w : SpiceGlzDecoderWindow) : DecodeOp -> Option SpiceGlzDecoderWindow
  | .decode img => decodeRelease w img
  | .clear => some w.glzDecoderWindowClear

/-- The gap has passed only decoded ids, the ids between `oldest` and the gap
are present under their own id, and no image still to come has its window
head below `oldest`. -/
def KeepsNeeded (sequences : Nat -> ServerSequence) (past : List DecodeOp)
    (w : SpiceGlzDecoderWindow) : Prop :=
  (forall id, id < w.tailGap -> id ∈ decoded past) ∧
  (forall id, w.oldest ≤ id -> id < w.tailGap -> w.waitForImage id = true) ∧
  (forall id, id ∉ decoded past -> w.oldest ≤ id - (sequences (epoch past)).dist id)

/-- A decode is a new image of the current sequence, in any order. -/
def OfSequence (sequences : Nat -> ServerSequence) (past : List DecodeOp) : DecodeOp -> Prop
  | .decode img =>
      img.hdr.id ∉ decoded past ∧ img.hdr.winHeadDist = (sequences (epoch past)).dist img.hdr.id
  | .clear => True

/-- The state before the call is one from which the release is harmless.

The id lies less than one table length above `oldest`, the table being the
one the insertion leaves behind, with fewer than 2^32 slots; its gap counter
does not wrap.  While image 0 is missing, an image in the last slot still
needs image 0.  A clear happens only before anything was released. -/
def WithinWindow (past : List DecodeOp) (w : SpiceGlzDecoderWindow) : DecodeOp -> Prop
  | .decode img =>
      ((w.images (img.hdr.id % w.nimages)).isSome -> w.nimages * 2 < 2 ^ 32) ∧
      img.hdr.id < w.oldest + w.sizeFor img.hdr.id ∧ img.hdr.id + 1 < 2 ^ 64 ∧
      (0 ∉ img.hdr.id :: decoded past -> forall other, w.Stores other ∨ other = img ->
        other.hdr.id + 1 = w.sizeFor img.hdr.id -> other.hdr.winHeadDist = other.hdr.id)
  | .clear => w.oldest = 0

theorem eq_of_mod_eq {low size first second : Nat} (same : first % size = second % size)
    (firstLow : low ≤ first) (firstHigh : first < low + size)
    (secondLow : low ≤ second) (secondHigh : second < low + size) : first = second := by
  rcases Nat.le_total first second with order | order
  · have multiple := Nat.sub_mod_eq_zero_of_mod_eq same.symm
    rw [Nat.mod_eq_of_lt (by omega)] at multiple
    omega
  · have multiple := Nat.sub_mod_eq_zero_of_mod_eq same
    rw [Nat.mod_eq_of_lt (by omega)] at multiple
    omega

theorem last_slot (k : Nat) (small : k ≤ 31) : (0 + 2 ^ 64 - 1) % 2 ^ 64 % 2 ^ k = 2 ^ k - 1 := by
  interval_cases k <;> rfl

/-- What every call keeps: the decoded images at or above `oldest` are stored,
each in a slot of its own, and nothing else is. -/
structure ReleaseInv (sequence : ServerSequence) (ids : List Nat) (w : SpiceGlzDecoderWindow) : Prop where
  size : Exists fun k => k ≤ 31 ∧ w.nimages = 2 ^ k
  slotted : Slotted w.images w.nimages
  near : forall img, w.Stores img -> w.oldest ≤ img.hdr.id ∧ img.hdr.id < w.oldest + w.nimages
  faithful : forall img, w.Stores img ->
    img.hdr.id ∈ ids ∧ img.hdr.winHeadDist = sequence.dist img.hdr.id
  present : forall id, id ∈ ids -> w.oldest ≤ id -> Exists fun img => w.Stores img ∧ img.hdr.id = id
  passed : forall id, id < w.tailGap -> id ∈ ids
  started : 0 ∈ ids -> 0 < w.tailGap
  order : w.oldest < w.tailGap ∨ (w.oldest = 0 ∧ w.tailGap = 0)
  needed : forall id, id ∉ ids -> w.oldest ≤ id - sequence.dist id
  wide : w.tailGap < 2 ^ 64

namespace ReleaseInv

variable {sequence : ServerSequence} {ids : List Nat} {w : SpiceGlzDecoderWindow}

theorem positive (inv : ReleaseInv sequence ids w) : 0 < w.nimages := by
  rcases inv.size with ⟨k, _, size⟩
  rw [size]
  exact Nat.two_pow_pos k

/-- A window that released nothing starts anew after it was cleared. -/
theorem cleared (sequence : ServerSequence) (w : SpiceGlzDecoderWindow) (fresh : w.oldest = 0) :
    ReleaseInv sequence [] w.glzDecoderWindowClear where
  size := ⟨4, by decide, rfl⟩
  slotted := by intro slot img found; cases found
  near := by intro img found; cases found
  faithful := by intro img found; cases found
  present := by intro id member; cases member
  passed := by intro id below; cases below
  started := by intro member; cases member
  order := Or.inr ⟨fresh, rfl⟩
  needed := by
    intro id _
    show w.oldest ≤ _
    omega
  wide := by
    show 0 < 2 ^ 64
    decide

theorem oldest_le (inv : ReleaseInv sequence ids w) {id : Nat} (missing : id ∉ ids) : w.oldest ≤ id := by
  have := inv.needed id missing
  omega

/-- The insertion, before anything is released. -/
theorem add (inv : ReleaseInv sequence ids w) (img : GlzImage) (missing : img.hdr.id ∉ ids)
    (dist : img.hdr.winHeadDist = sequence.dist img.hdr.id)
    (fits : (w.images (img.hdr.id % w.nimages)).isSome -> w.nimages * 2 < 2 ^ 32)
    (close : img.hdr.id < w.oldest + w.sizeFor img.hdr.id) (notLast : img.hdr.id + 1 < 2 ^ 64) :
    Exists fun next => w.glzDecoderWindowAdd img = some next ∧ next.oldest = w.oldest ∧
      next.nimages = w.sizeFor img.hdr.id ∧
      (forall other, next.Stores other -> w.Stores other ∨ other = img) ∧ ReleaseInv sequence
      (img.hdr.id :: ids) next := by
  have low := inv.oldest_le missing
  have grows : w.nimages ≤ w.sizeFor img.hdr.id := by
    unfold sizeFor
    split <;> omega
  have stores := addImages_stores inv.positive inv.slotted img
  have gapBound := closeGap_le (w.addImages img) (w.sizeFor img.hdr.id) img.hdr.id
    (img.hdr.id + 1 - w.tailGap) w.tailGap
  have gapPassed := closeGap_spec (w.addImages img) (w.sizeFor img.hdr.id) img.hdr.id
    (img.hdr.id + 1 - w.tailGap) w.tailGap
  change w.addGap img ≤ _ at gapBound
  change w.tailGap ≤ w.addGap img ∧ (forall t, w.tailGap ≤ t -> t < w.addGap img -> _) at gapPassed
  have wide := inv.wide
  have order := inv.order
  -- after the insertion all ids still lie within one table length of `oldest`
  have near : forall other, w.addImages img (other.hdr.id % w.sizeFor img.hdr.id) = some other ->
      w.oldest ≤ other.hdr.id ∧ other.hdr.id < w.oldest + w.sizeFor img.hdr.id := by
    intro other stored
    rcases (stores other).mp stored with same | ⟨_, old⟩
    · rw [same]
      exact ⟨low, close⟩
    · have := inv.near other old
      omega
  have faithful : forall other, w.addImages img (other.hdr.id % w.sizeFor img.hdr.id) = some other ->
      other.hdr.id ∈ img.hdr.id :: ids ∧ other.hdr.winHeadDist = sequence.dist other.hdr.id := by
    intro other stored
    rcases (stores other).mp stored with same | ⟨_, old⟩
    · rw [same]
      exact ⟨List.mem_cons_self, dist⟩
    · have := inv.faithful other old
      exact ⟨List.mem_cons_of_mem _ this.1, this.2⟩
  have slotted := addImages_slotted inv.positive inv.slotted img
  rw [glzDecoderWindowAdd_eq img inv.positive fits, if_neg (by omega)]
  refine ⟨_, rfl, rfl, rfl, ?_, ?_, slotted, near, faithful, ?_, ?_, ?_, ?_, ?_, ?_⟩
  · intro other stored
    rcases (stores other).mp stored with same | ⟨_, old⟩
    · exact Or.inr same
    · exact Or.inl old
  · rcases inv.size with ⟨k, bound, size⟩
    show Exists fun k => k ≤ 31 ∧ w.sizeFor img.hdr.id = 2 ^ k
    unfold sizeFor
    split
    · next occupied =>
        have small := fits occupied
        rw [size, ← Nat.pow_succ] at small
        have below := (Nat.pow_lt_pow_iff_right (by decide : 1 < 2)).mp small
        exact ⟨k + 1, by omega, by rw [size, Nat.pow_succ]⟩
    · exact ⟨k, bound, size⟩
  · intro id member above
    rcases List.mem_cons.mp member with same | old
    · exact ⟨img, (stores img).mpr (Or.inl rfl), same.symm⟩
    · rcases inv.present id old above with ⟨other, stored, sameId⟩
      refine ⟨other, (stores other).mpr (Or.inr ⟨?_, stored⟩), sameId⟩
      intro clash
      have bounds := inv.near other stored
      have equal := eq_of_mod_eq clash bounds.1 (by omega) low close
      exact missing (by rw [← equal, sameId]; exact old)
  · intro id below
    rcases Nat.lt_or_ge id w.tailGap with before | after
    · exact List.mem_cons_of_mem _ (inv.passed id before)
    · have taken := gapPassed.2 id after below
      rcases Option.isSome_iff_exists.mp taken.2 with ⟨other, stored⟩
      have place := slotted _ other stored
      rw [place] at stored
      have bounds := near other stored
      have equal := eq_of_mod_eq place (by omega) (by omega) bounds.1 bounds.2
      rw [equal]
      exact (faithful other stored).1
  · intro member
    show 0 < w.addGap img
    by_cases open0 : w.tailGap = 0
    · rcases List.mem_cons.mp member with same | old
      · -- image 0 itself: the loop takes at least one round
        have own := (stores img).mpr (Or.inl rfl)
        have first : (w.addImages img (0 % w.sizeFor img.hdr.id)).isSome := by
          rw [same]
          exact Option.isSome_iff_exists.mpr ⟨img, own⟩
        have round : img.hdr.id + 1 - 0 = img.hdr.id + 1 := rfl
        rw [addGap, open0, round, closeGap, if_pos ⟨Nat.zero_le _, first⟩]
        exact (closeGap_spec _ _ _ _ _).1
      · have := inv.started old
        omega
    · omega
  · show w.oldest < w.addGap img ∨ (w.oldest = 0 ∧ w.addGap img = 0)
    omega
  · intro id notDecoded
    exact inv.needed id (fun old => notDecoded (List.mem_cons_of_mem _ old))
  · show w.addGap img < 2 ^ 64
    omega

/-- Releasing up to a bound that no image still to come needs, and that the
gap has passed. -/
theorem release (inv : ReleaseInv sequence ids w) (oldest : Nat)
    (bound : oldest < w.oldest + w.nimages) (behind : oldest < w.tailGap)
    (needed : forall id, id ∉ ids -> oldest ≤ id - sequence.dist id) :
    ReleaseInv sequence ids (w.glzDecoderWindowRelease oldest) := by
  have stores : forall img, (w.glzDecoderWindowRelease oldest).Stores img <->
      w.Stores img ∧ oldest ≤ img.hdr.id := by
    intro img
    show releaseLoop w.nimages (oldest - w.oldest) w.images w.oldest (img.hdr.id % w.nimages) = some img <-> _
    rw [releaseLoop_eq_some]
    constructor
    · rintro ⟨stored, clear⟩
      refine ⟨stored, ?_⟩
      have bounds := inv.near img stored
      by_contra below
      exact clear img.hdr.id (by omega) (by omega) rfl
    · rintro ⟨stored, above⟩
      have bounds := inv.near img stored
      refine ⟨stored, fun t first last same => ?_⟩
      have equal := eq_of_mod_eq same first (by omega) bounds.1 bounds.2
      omega
  refine ⟨inv.size, ?_, ?_, ?_, ?_, inv.passed, inv.started, ?_, ?_, inv.wide⟩
  · intro slot img stored
    exact inv.slotted slot img ((releaseLoop_eq_some _ _ _ _ _ _).mp stored).1
  · intro img stored
    have found := (stores img).mp stored
    have bounds := inv.near img found.1
    show max w.oldest oldest ≤ _ ∧ _ < max w.oldest oldest + w.nimages
    omega
  · intro img stored
    exact inv.faithful img ((stores img).mp stored).1
  · intro id member above
    change max w.oldest oldest ≤ id at above
    rcases inv.present id member (by omega) with ⟨img, stored, same⟩
    exact ⟨img, (stores img).mpr ⟨stored, by omega⟩, same⟩
  · have order := inv.order
    show max w.oldest oldest < w.tailGap ∨ _
    omega
  · intro id missing
    have first := inv.needed id missing
    have second := needed id missing
    show max w.oldest oldest ≤ _
    omega

theorem release_zero (w : SpiceGlzDecoderWindow) : w.glzDecoderWindowRelease 0 = w := by
  simp [glzDecoderWindowRelease, releaseLoop]

/-- Looking below the gap finds the image just below it, or wraps around to
the last slot while image 0 is missing. -/
theorem decode (inv : ReleaseInv sequence ids w) (img : GlzImage) (missing : img.hdr.id ∉ ids)
    (dist : img.hdr.winHeadDist = sequence.dist img.hdr.id)
    (fits : (w.images (img.hdr.id % w.nimages)).isSome -> w.nimages * 2 < 2 ^ 32)
    (close : img.hdr.id < w.oldest + w.sizeFor img.hdr.id) (notLast : img.hdr.id + 1 < 2 ^ 64)
    (lastSlot : 0 ∉ img.hdr.id :: ids -> forall other, w.Stores other ∨ other = img ->
      other.hdr.id + 1 = w.sizeFor img.hdr.id -> other.hdr.winHeadDist = other.hdr.id) :
    Exists fun next => decodeRelease w img = some next ∧ ReleaseInv sequence (img.hdr.id :: ids) next := by
  rcases inv.add img missing dist fits close notLast with ⟨next, added, oldest, size, origin, nextInv⟩
  have wide := nextInv.wide
  simp only [decodeRelease, added]
  cases found : next.images ((next.tailGap + 2 ^ 64 - 1) % 2 ^ 64 % next.nimages) with
  | none => exact ⟨next, rfl, nextInv⟩
  | some image =>
      refine ⟨_, rfl, ?_⟩
      have place := nextInv.slotted _ image found
      have stored : next.Stores image := by
        rw [Stores, ← place]
        exact found
      have bounds := nextInv.near image stored
      have imageDist := (nextInv.faithful image stored).2
      have distLe := sequence.dist_le image.hdr.id
      rcases Nat.eq_zero_or_pos next.tailGap with zero | started
      · -- the wrapped index is the last slot, since the size is a power of two
        have zeroMissing : 0 ∉ img.hdr.id :: ids := by
          intro member
          have := nextInv.started member
          omega
        have noOldest : next.oldest = 0 := by
          have := nextInv.order
          omega
        have last : (0 + 2 ^ 64 - 1) % 2 ^ 64 % next.nimages = next.nimages - 1 := by
          rcases nextInv.size with ⟨k, small, pow⟩
          rw [pow]
          exact last_slot k small
        rw [zero, last, Nat.mod_eq_of_lt (by omega)] at place
        have whole := lastSlot zeroMissing image (origin image stored) (by
          have := nextInv.positive
          omega)
        have nothing : (image.hdr.id + 2 ^ 64 - image.hdr.winHeadDist) % 2 ^ 64 = 0 := by
          rw [whole]
          omega
        rw [nothing, release_zero]
        exact nextInv
      · -- the image below the gap is decoded and not yet released, so it is in its slot
        have below : (next.tailGap + 2 ^ 64 - 1) % 2 ^ 64 = next.tailGap - 1 := by omega
        have order := nextInv.order
        rcases nextInv.present (next.tailGap - 1) (nextInv.passed _ (by omega)) (by omega) with
          ⟨other, otherStored, otherId⟩
        rw [below] at found
        rw [Stores, otherId, found] at otherStored
        cases otherStored
        have head : (image.hdr.id + 2 ^ 64 - image.hdr.winHeadDist) % 2 ^ 64 =
            image.hdr.id - sequence.dist image.hdr.id := by
          rw [imageDist]
          omega
        rw [head]
        refine nextInv.release _ (by omega) (by omega) (fun id notDecoded => ?_)
        have later : next.tailGap ≤ id := by
          by_contra earlier
          exact notDecoded (nextInv.passed id (by omega))
        exact sequence.head_mono (show image.hdr.id ≤ id by omega)

theorem step {sequences : Nat -> ServerSequence} {past : List DecodeOp}
    (inv : ReleaseInv (sequences (epoch past)) (decoded past) w) (op : DecodeOp)
    (legal : OfSequence sequences past op) (within : WithinWindow past w op) :
    Exists fun next => decodeStep w op = some next ∧
      ReleaseInv (sequences (epoch (past ++ [op]))) (decoded (past ++ [op])) next := by
  cases op with
  | decode img =>
      rcases within with ⟨fits, close, notLast, lastSlot⟩
      rw [epoch_decode, decoded_decode]
      exact inv.decode img legal.1 legal.2 fits close notLast lastSlot
  | clear =>
      rw [decoded_clear]
      exact ⟨_, rfl, cleared _ w within⟩

theorem keepsNeeded {sequences : Nat -> ServerSequence} {past : List DecodeOp}
    (inv : ReleaseInv (sequences (epoch past)) (decoded past) w) : KeepsNeeded sequences past w := by
  refine ⟨inv.passed, fun id low high => ?_, inv.needed⟩
  rcases inv.present id (inv.passed id high) low with ⟨img, stored, same⟩
  rw [← same]
  exact waitForImage_of_stores stored

end ReleaseInv

/-- In every run of decodes, in any order, and clears that stays within the
window, no call fails and no needed image is ever released. -/
theorem decode_keeps_needed_images (sequences : Nat -> ServerSequence) (ops : List DecodeOp) (within : Meets decodeStep
      (fun past w op => OfSequence sequences past op ∧ WithinWindow past w op) [] glzDecoderWindowNew ops) :
    AllStates decodeStep (KeepsNeeded sequences) [] glzDecoderWindowNew ops := by
  have start : ReleaseInv (sequences (epoch [])) (decoded []) glzDecoderWindowNew :=
    ReleaseInv.cleared _ _ rfl
  exact allStates_of_meets (fun _ _ inv => ReleaseInv.keepsNeeded inv)
    (fun _ _ op inv ok => ReleaseInv.step inv op ok.1 ok.2) start within

/-- The sequence in which every image may refer back to image 0. -/
def wholeHistory : ServerSequence where
  dist := id
  dist_le := Nat.le_refl
  head_mono := by
    intro first second _
    simp

/-- An image of one black pixel of that sequence. -/
def historyImage (id : Nat) : GlzImage where
  hdr := { id := id, type := .rgb32, width := 1, height := 1, grossPixels := 1, topDown := true,
           winHeadDist := id }
  data := [⟨0, 0, 0, 0⟩]

/-- Image 16 comes first and lands in slot 0, so the gap moves past image 0,
which has not been decoded. -/
theorem decode_passes_missing_image : Not (forall (sequences : Nat -> ServerSequence) (ops : List DecodeOp),
      Meets decodeStep (fun past _ op => OfSequence sequences past op) [] glzDecoderWindowNew ops ->
      AllStates decodeStep (KeepsNeeded sequences) [] glzDecoderWindowNew ops) := by
  intro claim
  have all := claim (fun _ => wholeHistory) [.decode (historyImage 16)]
    ⟨⟨by decide, rfl⟩, fun _ _ => trivial⟩
  rcases all _ (List.prefix_refl _) with ⟨w, ran, passed, _⟩
  have moved : (run decodeStep glzDecoderWindowNew [.decode (historyImage 16)]).map
      (fun final => final.tailGap) = some 1 := by decide
  rw [ran] at moved
  have gap : w.tailGap = 1 := Option.some.inj moved
  have decodedZero := passed 0 (by omega)
  revert decodedZero
  decide

/-- The sequence in which every image may refer back to the one before. -/
def lastImage : ServerSequence where
  dist := fun id => min id 1
  dist_le := fun id => Nat.min_le_left id 1
  head_mono := by
    intro first second before
    simp only
    omega

/-- An image of one black pixel of that sequence. -/
def nextImage (id : Nat) : GlzImage where
  hdr := { id := id, type := .rgb32, width := 1, height := 1, grossPixels := 1, topDown := true,
           winHeadDist := min id 1 }
  data := [⟨0, 0, 0, 0⟩]

/-- One image and a restart of the ids; then image 2 comes before image 1, with which images 0 and 1 are
passed and image 0 is released, and image 3 releases image 1. -/
theorem decode_keeps_needed_images_restart :
    AllStates decodeStep (KeepsNeeded (fun _ => lastImage)) [] glzDecoderWindowNew
      [.decode (nextImage 0), .clear, .decode (nextImage 0), .decode (nextImage 2), .decode (nextImage 1),
        .decode (nextImage 3)] ∧
    (run decodeStep glzDecoderWindowNew
      [.decode (nextImage 0), .clear, .decode (nextImage 0), .decode (nextImage 2), .decode (nextImage 1),
        .decode (nextImage 3)]).map (fun final => (final.oldest, (final.images 0).isSome, (final.images 2).isSome)) =
      some (2, false, true) := by
  refine ⟨decode_keeps_needed_images _ _
    ⟨⟨⟨by decide, rfl⟩, by decide, by decide, by decide, ?_⟩, fun first stepped => ?_⟩, by decide⟩
  · intro missing
    exact absurd List.mem_cons_self missing
  cases stepped
  refine ⟨⟨trivial, rfl⟩, fun second stepped => ?_⟩
  cases stepped
  refine ⟨⟨⟨by decide, rfl⟩, by decide, by decide, by decide, ?_⟩, fun third stepped => ?_⟩
  · intro missing
    exact absurd List.mem_cons_self missing
  cases stepped
  refine ⟨⟨⟨by decide, rfl⟩, by decide, by decide, by decide, ?_⟩, fun fourth stepped => ?_⟩
  · intro missing
    exact absurd (by decide) missing
  cases stepped
  refine ⟨⟨⟨by decide, rfl⟩, by decide, by decide, by decide, ?_⟩, fun fifth stepped => ?_⟩
  · intro missing
    exact absurd (by decide) missing
  cases stepped
  refine ⟨⟨⟨by decide, rfl⟩, by decide, by decide, by decide, ?_⟩, fun _ _ => trivial⟩
  intro missing
  exact absurd (by decide) missing

end Glz
end Spice
