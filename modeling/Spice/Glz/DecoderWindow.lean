import Mathlib.Logic.Function.Basic
import Mathlib.Tactic.Common
import Spice.Lib.Run
import Spice.Lz.Common

namespace Spice
namespace Glz

open Lib Lz

/-!
# The image window of the GLZ client decoder

`decode-glz.c` keeps decoded images in a table indexed by image id modulo the
table size.  An insertion that meets an occupied slot doubles the table once
and then stores the image in the new slot without looking at it again.
`glz_decoder_window_release` empties the slots of the ids below its argument,
again without looking at what they hold.

The model follows the C functions.  The table is a function on slots, `none`
is an empty slot, and a step that cannot complete in C returns `none`: the
doubled size wraps to zero and the next remainder divides by it, or the gap
loop passes the largest 64-bit id.
-/

/-- `struct glz_image_hdr`. -/
structure GlzImageHdr where
  id : Nat
  type : LzImageType
  width : Nat
  height : Nat
  grossPixels : Nat
  topDown : Bool
  winHeadDist : Nat
  deriving DecidableEq, Repr

/-- `struct glz_image`; `data` holds the pixels in stream order. -/
structure GlzImage where
  hdr : GlzImageHdr
  data : List Rgb32Pixel
  deriving DecidableEq, Repr

/-- `struct SpiceGlzDecoderWindow`. -/
structure SpiceGlzDecoderWindow where
  images : Nat -> Option GlzImage
  nimages : Nat
  oldest : Nat
  tailGap : Nat

namespace SpiceGlzDecoderWindow

/-- The copy loop of `glz_decoder_window_resize` over the first slots. -/
def resizeCopy (images : Nat -> Option GlzImage) (size : Nat) : Nat -> Nat -> Option GlzImage
  | 0 => fun _ => none
  | i + 1 =>
      match images i with
      | none => resizeCopy images size i
      | some img => Function.update (resizeCopy images size i) (img.hdr.id % size) (some img)

/-- `glz_decoder_window_resize`.  The new size is computed in 32 bits. -/
def glzDecoderWindowResize (w : SpiceGlzDecoderWindow) : Option SpiceGlzDecoderWindow :=
  let size := w.nimages * 2 % 2 ^ 32
  if size = 0 then none
  else some { w with images := resizeCopy w.images size w.nimages, nimages := size }

/-- The loop that closes the gap, for at most `fuel` rounds. -/
def closeGap (images : Nat -> Option GlzImage) (nimages id : Nat) : Nat -> Nat -> Nat
  | 0, tailGap => tailGap
  | fuel + 1, tailGap =>
      if tailGap ≤ id ∧ (images (tailGap % nimages)).isSome then
        closeGap images nimages id fuel (tailGap + 1)
      else tailGap

/-- `glz_decoder_window_add`.  The gap never passes `id`, which bounds its
loop; at the largest 64-bit id the counter would wrap and the loop never end. -/
def glzDecoderWindowAdd (w : SpiceGlzDecoderWindow) (img : GlzImage) :
    Option SpiceGlzDecoderWindow :=
  let id := img.hdr.id
  match (if (w.images (id % w.nimages)).isSome then w.glzDecoderWindowResize else some w) with
  | none => none
  | some w =>
      let images := Function.update w.images (id % w.nimages) (some img)
      let tailGap := closeGap images w.nimages id (id + 1 - w.tailGap) w.tailGap
      if tailGap = 2 ^ 64 then none
      else some { w with images := images, tailGap := tailGap }

def waitForImage (w : SpiceGlzDecoderWindow) (id : Nat) : Bool :=
  match w.images (id % w.nimages) with
  | none => false
  | some img => img.hdr.id == id

/-- `glz_decoder_window_bits`, once the wait has ended: the pixels of image
`id - dist` from `offset` on. -/
def glzDecoderWindowBits (w : SpiceGlzDecoderWindow) (id dist offset : Nat) :
    Option (List Rgb32Pixel) :=
  let ref := (id + 2 ^ 64 - dist) % 2 ^ 64
  match w.images (ref % w.nimages) with
  | none => none
  | some img =>
      if img.hdr.id = ref ∧ offset ≤ img.hdr.grossPixels then some (img.data.drop offset) else none

/-- The loop of `glz_decoder_window_release`, for exactly `fuel` rounds. -/
def releaseLoop (nimages : Nat) : Nat -> (Nat -> Option GlzImage) -> Nat -> Nat -> Option GlzImage
  | 0, images, _ => images
  | fuel + 1, images, oldest =>
      releaseLoop nimages fuel (Function.update images (oldest % nimages) none) (oldest + 1)

def glzDecoderWindowRelease (w : SpiceGlzDecoderWindow) (oldest : Nat) : SpiceGlzDecoderWindow :=
  { w with
    images := releaseLoop w.nimages (oldest - w.oldest) w.images w.oldest
    oldest := max w.oldest oldest }

/-- `glz_decoder_window_clear`.  `oldest` keeps its value. -/
def glzDecoderWindowClear (w : SpiceGlzDecoderWindow) : SpiceGlzDecoderWindow :=
  { w with images := fun _ => none, nimages := 16, tailGap := 0 }

def glzDecoderWindowNew : SpiceGlzDecoderWindow :=
  glzDecoderWindowClear { images := fun _ => none, nimages := 0, oldest := 0, tailGap := 0 }

/-! ## What each function does to the table -/

/-- Every stored image sits in the slot of its own id. -/
def Slotted (images : Nat -> Option GlzImage) (nimages : Nat) : Prop :=
  forall slot img, images slot = some img -> slot = img.hdr.id % nimages

/-- The image stored under `id`, if the slot of `id` holds that very image. -/
def Stores (w : SpiceGlzDecoderWindow) (img : GlzImage) : Prop :=
  w.images (img.hdr.id % w.nimages) = some img

variable {w : SpiceGlzDecoderWindow}

theorem waitForImage_of_stores {img : GlzImage} (stored : w.Stores img) :
    w.waitForImage img.hdr.id = true := by
  unfold Stores at stored
  simp [waitForImage, stored]

/-- The copy loop over `bound` slots keeps exactly the images of those slots:
two images of different slots differ modulo the old size, hence also modulo
its double. -/
theorem resizeCopy_eq_some {images : Nat -> Option GlzImage} {nimages : Nat}
    (slotted : Slotted images nimages) (bound slot : Nat) (img : GlzImage) :
    resizeCopy images (nimages * 2) bound slot = some img <->
      img.hdr.id % nimages < bound ∧ images (img.hdr.id % nimages) = some img ∧ slot = img.hdr.id % (nimages * 2) := by
  induction bound with
  | zero => simp [resizeCopy]
  | succ i ih =>
      cases stored : images i with
      | none =>
          simp only [resizeCopy, stored, ih]
          constructor
          · rintro ⟨below, found, place⟩
            exact ⟨by omega, found, place⟩
          · rintro ⟨below, found, place⟩
            refine ⟨?_, found, place⟩
            rcases Nat.lt_succ_iff_lt_or_eq.mp below with below | same
            · exact below
            · rw [same, stored] at found
              cases found
      | some other =>
          have otherSlot : i = other.hdr.id % nimages := slotted i other stored
          simp only [resizeCopy, stored]
          by_cases place : slot = other.hdr.id % (nimages * 2)
          · rw [place, Function.update_self]
            constructor
            · intro same
              cases same
              exact ⟨by omega, by rw [← otherSlot]; exact stored, rfl⟩
            · rintro ⟨_, found, same⟩
              have slots : img.hdr.id % nimages = other.hdr.id % nimages := by
                have shrink : forall id : Nat, id % (nimages * 2) % nimages = id % nimages :=
                  fun id => Nat.mod_mod_of_dvd id ⟨2, rfl⟩
                rw [← shrink img.hdr.id, ← shrink other.hdr.id, same]
              rw [slots, ← otherSlot, stored] at found
              exact found
          · rw [Function.update_of_ne place, ih]
            constructor
            · rintro ⟨below, found, same⟩
              exact ⟨by omega, found, same⟩
            · rintro ⟨below, found, same⟩
              refine ⟨?_, found, same⟩
              rcases Nat.lt_succ_iff_lt_or_eq.mp below with below | equal
              · exact below
              · rw [equal, stored] at found
                cases found
                exact absurd same place

/-- Where the release stops. -/
theorem releaseLoop_eq_some (nimages fuel : Nat) (images : Nat -> Option GlzImage) (oldest slot : Nat)
    (img : GlzImage) :
    releaseLoop nimages fuel images oldest slot = some img <->
      images slot = some img ∧ forall t, oldest ≤ t -> t < oldest + fuel -> t % nimages ≠ slot := by
  induction fuel generalizing images oldest with
  | zero =>
      simp only [releaseLoop]
      refine ⟨fun found => ⟨found, fun t low high => by omega⟩, fun found => found.1⟩
  | succ fuel ih =>
      rw [releaseLoop, ih]
      by_cases first : slot = oldest % nimages
      · rw [first, Function.update_self]
        constructor
        · rintro ⟨found, _⟩
          cases found
        · rintro ⟨_, clear⟩
          exact absurd rfl (clear oldest (Nat.le_refl _) (by omega))
      · rw [Function.update_of_ne first]
        constructor
        · rintro ⟨found, clear⟩
          refine ⟨found, fun t low high => ?_⟩
          rcases Nat.eq_or_lt_of_le low with same | later
          · rw [← same]
            exact fun equal => first equal.symm
          · exact clear t later (by omega)
        · rintro ⟨found, clear⟩
          exact ⟨found, fun t low high => clear t (by omega) (by omega)⟩

/-- The table size after the doubling that `glz_decoder_window_add` does when
the slot of `id` is taken. -/
def sizeFor (w : SpiceGlzDecoderWindow) (id : Nat) : Nat :=
  if (w.images (id % w.nimages)).isSome then w.nimages * 2 else w.nimages

/-- What is stored after the doubling, before the new image is written. -/
def grownImages (w : SpiceGlzDecoderWindow) (id : Nat) : Nat -> Option GlzImage :=
  if (w.images (id % w.nimages)).isSome then resizeCopy w.images (w.nimages * 2) w.nimages
  else w.images

theorem grownImages_eq_some (positive : 0 < w.nimages)
    (slotted : Slotted w.images w.nimages) (id slot : Nat) (img : GlzImage) :
    w.grownImages id slot = some img <-> w.Stores img ∧ slot = img.hdr.id % w.sizeFor id := by
  unfold grownImages sizeFor Stores
  split
  · rw [resizeCopy_eq_some slotted]
    exact ⟨fun found => found.2, fun found => ⟨Nat.mod_lt _ positive, found⟩⟩
  · constructor
    · intro found
      have place := slotted slot img found
      exact ⟨by rw [← place]; exact found, place⟩
    · rintro ⟨found, place⟩
      rw [place]
      exact found

/-- The gap moves over slots that are not empty, and no further. -/
theorem closeGap_spec (images : Nat -> Option GlzImage) (nimages id fuel tailGap : Nat) :
    tailGap ≤ closeGap images nimages id fuel tailGap ∧
      (forall t, tailGap ≤ t -> t < closeGap images nimages id fuel tailGap ->
        t ≤ id ∧ (images (t % nimages)).isSome) := by
  induction fuel generalizing tailGap with
  | zero => exact ⟨Nat.le_refl _, fun t low high => by simp only [closeGap] at high; omega⟩
  | succ fuel ih =>
      rw [closeGap]
      split
      · next passes =>
          rcases ih (tailGap + 1) with ⟨grows, passed⟩
          refine ⟨by omega, fun t low high => ?_⟩
          rcases Nat.eq_or_lt_of_le low with same | later
          · rw [← same]
            exact passes
          · exact passed t later high
      · exact ⟨Nat.le_refl _, fun t low high => by omega⟩

theorem closeGap_le (images : Nat -> Option GlzImage) (nimages id fuel tailGap : Nat) :
    closeGap images nimages id fuel tailGap ≤ max tailGap (id + 1) := by
  rcases closeGap_spec images nimages id fuel tailGap with ⟨grows, passed⟩
  by_cases moved : closeGap images nimages id fuel tailGap = tailGap
  · omega
  · have last := passed (closeGap images nimages id fuel tailGap - 1) (by omega) (by omega)
    omega

theorem closeGap_of_full (images : Nat -> Option GlzImage) (nimages id fuel tailGap : Nat)
    (enough : id + 1 ≤ tailGap + fuel) (low : tailGap ≤ id + 1)
    (full : forall t, tailGap ≤ t -> t ≤ id -> (images (t % nimages)).isSome) :
    closeGap images nimages id fuel tailGap = id + 1 := by
  induction fuel generalizing tailGap with
  | zero => simp only [closeGap]; omega
  | succ fuel ih =>
      rw [closeGap]
      by_cases below : tailGap ≤ id
      · rw [if_pos ⟨below, full tailGap (Nat.le_refl _) below⟩]
        exact ih (tailGap + 1) (by omega) (by omega) (fun t first last => full t (by omega) last)
      · rw [if_neg (fun passes => below passes.1)]
        omega

/-- The table `glz_decoder_window_add` leaves behind. -/
def addImages (w : SpiceGlzDecoderWindow) (img : GlzImage) : Nat -> Option GlzImage :=
  Function.update (w.grownImages img.hdr.id) (img.hdr.id % w.sizeFor img.hdr.id) (some img)

/-- The gap `glz_decoder_window_add` finds in that table. -/
def addGap (w : SpiceGlzDecoderWindow) (img : GlzImage) : Nat :=
  closeGap (w.addImages img) (w.sizeFor img.hdr.id) img.hdr.id (img.hdr.id + 1 - w.tailGap) w.tailGap

/-- `glz_decoder_window_add` as one equation.  It fails only when the size
wraps or the gap loop does. -/
theorem glzDecoderWindowAdd_eq (img : GlzImage)
    (positive : 0 < w.nimages)
    (fits : (w.images (img.hdr.id % w.nimages)).isSome -> w.nimages * 2 < 2 ^ 32) :
    w.glzDecoderWindowAdd img =
      if w.addGap img = 2 ^ 64 then none
      else some { images := w.addImages img, nimages := w.sizeFor img.hdr.id,
                  oldest := w.oldest, tailGap := w.addGap img } := by
  unfold glzDecoderWindowAdd addGap addImages sizeFor grownImages
  by_cases occupied : (w.images (img.hdr.id % w.nimages)).isSome
  · have small := fits occupied
    have nonzero : w.nimages * 2 ≠ 0 := by omega
    simp only [occupied, if_true, glzDecoderWindowResize, Nat.mod_eq_of_lt small, if_neg nonzero]
  · simp only [occupied, if_false, Bool.false_eq_true]

theorem addImages_eq_some (positive : 0 < w.nimages)
    (slotted : Slotted w.images w.nimages) (img other : GlzImage) (slot : Nat) : w.addImages img slot = some other <->
      (slot = img.hdr.id % w.sizeFor img.hdr.id ∧ other = img) ∨
        (slot ≠ img.hdr.id % w.sizeFor img.hdr.id ∧ w.Stores other ∧
        slot = other.hdr.id % w.sizeFor img.hdr.id) := by
  unfold addImages
  by_cases place : slot = img.hdr.id % w.sizeFor img.hdr.id
  · rw [place, Function.update_self]
    simp [eq_comm]
  · rw [Function.update_of_ne place, grownImages_eq_some positive slotted]
    simp [place]

theorem addImages_stores (positive : 0 < w.nimages)
    (slotted : Slotted w.images w.nimages) (img other : GlzImage) :
    w.addImages img (other.hdr.id % w.sizeFor img.hdr.id) = some other <->
      other = img ∨ (other.hdr.id % w.sizeFor img.hdr.id ≠ img.hdr.id % w.sizeFor img.hdr.id ∧ w.Stores other) := by
  rw [addImages_eq_some positive slotted]
  constructor
  · rintro (⟨_, same⟩ | ⟨different, old, _⟩)
    · exact Or.inl same
    · exact Or.inr ⟨different, old⟩
  · rintro (same | ⟨different, old⟩)
    · exact Or.inl ⟨by rw [same], same⟩
    · exact Or.inr ⟨different, old, rfl⟩

theorem addImages_slotted (positive : 0 < w.nimages)
    (slotted : Slotted w.images w.nimages) (img : GlzImage) : Slotted (w.addImages img) (w.sizeFor img.hdr.id) := by
  intro slot found stored
  rcases (addImages_eq_some positive slotted img found slot).mp stored with ⟨place, same⟩ | ⟨_, _, place⟩
  · rw [place, same]
  · exact place

end SpiceGlzDecoderWindow

end Glz
end Spice
