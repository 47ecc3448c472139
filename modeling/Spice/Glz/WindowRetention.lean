import Spice.Glz.DecoderWindow

namespace Spice
namespace Glz

open Lib SpiceGlzDecoderWindow

/-!
# Which images the decoder window retains

Images are added in any order and released by id.  The window is meant to
find every added image whose id no release has passed.  One doubling makes
room for an image only when no live image agrees with it modulo the doubled
size, and a release forgets whatever its slots hold.  These two congruences
are exactly the condition under which nothing is lost.
-/

inductive WindowOp
  | add (img : GlzImage)
  | release (oldest : Nat)

namespace WindowOp

/-- The images added by a list of calls. -/
def added : List WindowOp -> List GlzImage
  | [] => []
  | add img :: rest => img :: added rest
  | release _ :: rest => added rest

/-- The largest value passed to a release. -/
def released : List WindowOp -> Nat
  | [] => 0
  | add _ :: rest => released rest
  | release oldest :: rest => max oldest (released rest)

theorem added_append (first second : List WindowOp) : added (first ++ second) = added first ++ added second := by
  induction first with
  | nil => rfl
  | cons op rest ih => cases op <;> simp [added, ih]

theorem released_append (first second : List WindowOp) :
    released (first ++ second) = max (released first) (released second) := by
  induction first with
  | nil => simp [released]
  | cons op rest ih => cases op <;> simp [released, ih, Nat.max_assoc]

/-- Ids are 64-bit values, and no id is added twice. -/
def Legal (past : List WindowOp) : WindowOp -> Prop
  | add img => img.hdr.id < 2 ^ 64 ∧ img.hdr.id ∉ (added past).map (fun other => other.hdr.id)
  | release _ => True

theorem legal_of_distinct {ops before after : List WindowOp} {op : WindowOp}
    (distinct : ((added ops).map (fun img => img.hdr.id)).Nodup)
    (wide : forall img, img ∈ added ops -> img.hdr.id < 2 ^ 64)
    (split : ops = before ++ op :: after) : Legal before op := by
  cases op with
  | release oldest => trivial
  | add img =>
      rw [split, added_append] at distinct wide
      refine ⟨wide img (by simp [added]), fun member => ?_⟩
      simp only [added, List.map_append, List.map_cons] at distinct
      exact (List.nodup_append.mp distinct).2.2 _ member _ List.mem_cons_self rfl

end WindowOp

open WindowOp

/-- One call; `none` when it crashes or never returns. -/
def windowStep (w : SpiceGlzDecoderWindow) : WindowOp -> Option SpiceGlzDecoderWindow
  | .add img => w.glzDecoderWindowAdd img
  | .release oldest => some (w.glzDecoderWindowRelease oldest)

/-- Every image that was added and not released is found under its id: the
wait for it succeeds and its pixels are returned from any offset. -/
def Retained (past : List WindowOp) (w : SpiceGlzDecoderWindow) : Prop :=
  forall img, img ∈ added past -> released past ≤ img.hdr.id ->
    w.waitForImage img.hdr.id = true ∧
    forall dist offset, img.hdr.id + dist < 2 ^ 64 -> offset ≤ img.hdr.grossPixels ->
      w.glzDecoderWindowBits (img.hdr.id + dist) dist offset = some (img.data.drop offset)

/-- The state before the call leaves room for it.

An image that finds its slot taken needs a doubled table of fewer than 2^32
slots, in which no live image agrees with it.  The last 64-bit id also needs
an empty slot among those its gap loop visits.  A release needs the slots it
empties to hold no image at or above its argument. -/
def HasRoom (w : SpiceGlzDecoderWindow) : WindowOp -> Prop
  | .add img =>
      ((w.images (img.hdr.id % w.nimages)).isSome -> w.nimages * 2 < 2 ^ 32) ∧
      (forall other, w.Stores other -> w.oldest ≤ other.hdr.id ->
        other.hdr.id % w.sizeFor img.hdr.id ≠ img.hdr.id % w.sizeFor img.hdr.id) ∧
      (img.hdr.id + 1 = 2 ^ 64 -> Exists fun t => w.tailGap ≤ t ∧ t ≤ img.hdr.id ∧
        t % w.sizeFor img.hdr.id ≠ img.hdr.id % w.sizeFor img.hdr.id ∧
        forall other, w.Stores other -> other.hdr.id % w.sizeFor img.hdr.id ≠
          t % w.sizeFor img.hdr.id)
  | .release oldest =>
      forall other, w.Stores other -> oldest ≤ other.hdr.id ->
        forall t, w.oldest ≤ t -> t < oldest -> t % w.nimages ≠ other.hdr.id % w.nimages

/-- What a run keeps besides retention. -/
structure WindowInv (past : List WindowOp) (w : SpiceGlzDecoderWindow) : Prop where
  size : Exists fun k => k ≤ 31 ∧ w.nimages = 2 ^ k
  slotted : Slotted w.images w.nimages
  oldest : w.oldest = released past
  gap : w.tailGap < 2 ^ 64
  added : forall img, w.Stores img -> img ∈ added past
  live : forall img, img ∈ WindowOp.added past -> released past ≤ img.hdr.id -> w.Stores img

namespace WindowInv

variable {past : List WindowOp} {w : SpiceGlzDecoderWindow}

theorem positive (inv : WindowInv past w) : 0 < w.nimages := by
  rcases inv.size with ⟨k, _, size⟩
  rw [size]
  exact Nat.two_pow_pos k

theorem new : WindowInv [] glzDecoderWindowNew where
  size := ⟨4, by decide, rfl⟩
  slotted := by intro slot img found; cases found
  oldest := rfl
  gap := by decide
  added := by intro img found; cases found
  live := by intro img member; cases member

theorem retained (inv : WindowInv past w) : Retained past w := by
  intro img member live
  have stored := inv.live img member live
  refine ⟨waitForImage_of_stores stored, fun dist offset small inside => ?_⟩
  have ref : (img.hdr.id + dist + 2 ^ 64 - dist) % 2 ^ 64 = img.hdr.id := by omega
  unfold Stores at stored
  simp only [glzDecoderWindowBits, ref, stored, true_and, if_pos inside]

theorem size_sizeFor (inv : WindowInv past w) (id : Nat)
    (fits : (w.images (id % w.nimages)).isSome -> w.nimages * 2 < 2 ^ 32) :
    Exists fun k => k ≤ 31 ∧ w.sizeFor id = 2 ^ k := by
  rcases inv.size with ⟨k, bound, size⟩
  unfold sizeFor
  by_cases occupied : (w.images (id % w.nimages)).isSome
  · rw [if_pos occupied, size, ← Nat.pow_succ]
    have small := fits occupied
    rw [size, ← Nat.pow_succ] at small
    have below := (Nat.pow_lt_pow_iff_right (by decide : 1 < 2)).mp small
    exact ⟨k + 1, by omega, rfl⟩
  · rw [if_neg occupied]
    exact ⟨k, bound, size⟩

/-- Adding an image that has room keeps the invariant. -/
theorem add (inv : WindowInv past w) (img : GlzImage) (legal : Legal past (.add img)) (room : HasRoom w (.add img)) :
    Exists fun next => windowStep w (.add img) = some next ∧ WindowInv (past ++ [.add img]) next := by
  rcases room with ⟨fits, apart, last⟩
  have bound := closeGap_le (w.addImages img) (w.sizeFor img.hdr.id) img.hdr.id
    (img.hdr.id + 1 - w.tailGap) w.tailGap
  have gapStart := inv.gap
  have idBound := legal.1
  -- the loop can only reach 2^64 behind the last id, and there it meets an empty slot
  have ended : w.addGap img ≠ 2 ^ 64 := by
    intro wraps
    unfold addGap at wraps
    rcases last (by omega) with ⟨t, low, high, other, free⟩
    have taken := ((closeGap_spec (w.addImages img) (w.sizeFor img.hdr.id) img.hdr.id
      (img.hdr.id + 1 - w.tailGap) w.tailGap).2 t low (by omega)).2
    rcases Option.isSome_iff_exists.mp taken with ⟨found, stored⟩
    rcases (addImages_eq_some inv.positive inv.slotted img found _).mp stored with
      ⟨same, _⟩ | ⟨_, old, same⟩
    · exact other same
    · exact free found old same.symm
  have stores := addImages_stores inv.positive inv.slotted img
  simp only [windowStep]
  rw [glzDecoderWindowAdd_eq img inv.positive fits, if_neg ended]
  refine ⟨_, rfl, inv.size_sizeFor img.hdr.id fits, addImages_slotted inv.positive inv.slotted img,
    ?_, ?_, ?_, ?_⟩
  · show w.oldest = _
    rw [inv.oldest, released_append]
    simp [released]
  · show w.addGap img < 2 ^ 64
    unfold addGap at ended ⊢
    omega
  · intro other stored
    rw [added_append]
    rcases (stores other).mp stored with same | ⟨_, old⟩
    · simp [WindowOp.added, same]
    · exact List.mem_append.mpr (Or.inl (inv.added other old))
  · intro other member live
    apply (stores other).mpr
    rw [added_append, List.mem_append] at member
    rw [released_append] at live
    have liveBefore : released past ≤ other.hdr.id := by omega
    rcases member with old | fresh
    · have stored := inv.live other old liveBefore
      exact Or.inr ⟨apart other stored (by rw [inv.oldest]; exact liveBefore), stored⟩
    · exact Or.inl (by simpa [WindowOp.added] using fresh)

/-- A release drops the images below its bound. -/
theorem release (inv : WindowInv past w) (oldest : Nat) (room : HasRoom w (.release oldest)) :
    WindowInv (past ++ [.release oldest]) (w.glzDecoderWindowRelease oldest) := by
  have shape := releaseLoop_eq_some w.nimages (oldest - w.oldest) w.images w.oldest
  refine ⟨inv.size, ?_, ?_, inv.gap, ?_, ?_⟩
  · intro slot img stored
    exact inv.slotted slot img ((shape slot img).mp stored).1
  · show max w.oldest oldest = _
    rw [inv.oldest, released_append]
    simp [released]
  · intro img stored
    rw [added_append]
    exact List.mem_append.mpr (Or.inl (inv.added img ((shape _ img).mp stored).1))
  · intro img member live
    rw [added_append, List.mem_append] at member
    rw [released_append] at live
    simp only [released, Nat.max_zero] at live
    rcases member with old | none
    · have stored := inv.live img old (by omega)
      refine (shape _ img).mpr ⟨stored, fun t low high => ?_⟩
      exact room img stored (by omega) t low (by omega)
    · simp [WindowOp.added] at none

theorem step (inv : WindowInv past w) (op : WindowOp) (legal : Legal past op) (room : HasRoom w op) :
    Exists fun next => windowStep w op = some next ∧ WindowInv (past ++ [op]) next := by
  cases op with
  | add img => exact inv.add img legal room
  | release oldest => exact ⟨_, rfl, inv.release oldest room⟩

theorem fits_of_some (inv : WindowInv past w) {img : GlzImage} {next : SpiceGlzDecoderWindow}
    (stepped : w.glzDecoderWindowAdd img = some next)
    (occupied : (w.images (img.hdr.id % w.nimages)).isSome) : w.nimages * 2 < 2 ^ 32 := by
  rcases inv.size with ⟨k, bound, size⟩
  rcases Nat.lt_or_ge k 31 with small | large
  · rw [size, ← Nat.pow_succ]
    exact Nat.pow_lt_pow_right (by decide) (by omega)
  · have isLast : k = 31 := by omega
    have wraps : w.nimages * 2 % 2 ^ 32 = 0 :=
      calc
        w.nimages * 2 % 2 ^ 32 = 2 ^ 31 * 2 % 2 ^ 32 := by rw [size, isLast]
        _ = 0 := by decide
    simp only [glzDecoderWindowAdd, occupied, if_true, glzDecoderWindowResize, wraps] at stepped
    cases stepped

/-- An image that is kept had room. -/
theorem room_of_add (inv : WindowInv past w) (img : GlzImage) (legal : Legal past (.add img))
    {next : SpiceGlzDecoderWindow} (stepped : w.glzDecoderWindowAdd img = some next)
    (retained : Retained (past ++ [.add img]) next) : HasRoom w (.add img) := by
  have fits := fun occupied => inv.fits_of_some stepped occupied
  rw [glzDecoderWindowAdd_eq img inv.positive fits] at stepped
  split at stepped
  · cases stepped
  · next notWrapped =>
      cases stepped
      refine ⟨fits, ?_, ?_⟩
      · intro other stored live same
        rw [inv.oldest] at live
        have member := inv.added other stored
        have different : img.hdr.id ≠ other.hdr.id := by
          intro equal
          exact legal.2 (List.mem_map.mpr ⟨other, member, equal.symm⟩)
        have found := (retained other (by rw [added_append]; exact List.mem_append.mpr (Or.inl member))
          (by rw [released_append]; simp only [released]; omega)).1
        simp only [waitForImage, addImages, same, Function.update_self, beq_iff_eq] at found
        exact different found
      · intro lastId
        by_contra noRoom
        apply notWrapped
        have gapStart := inv.gap
        unfold addGap
        rw [closeGap_of_full _ _ _ _ _ (by omega) (by omega), lastId]
        intro t first final
        by_contra empty
        apply noRoom
        refine ⟨t, first, final, ?_, ?_⟩
        · intro same
          rw [addImages, same, Function.update_self] at empty
          exact empty rfl
        · intro other stored same
          apply empty
          apply Option.isSome_iff_exists.mpr
          by_cases place : t % w.sizeFor img.hdr.id = img.hdr.id % w.sizeFor img.hdr.id
          · exact ⟨img, (addImages_eq_some inv.positive inv.slotted _ _ _).mpr (Or.inl ⟨place, rfl⟩)⟩
          · exact ⟨other, (addImages_eq_some inv.positive inv.slotted _ _ _).mpr
              (Or.inr ⟨place, stored, same.symm⟩)⟩

/-- A release that kept the others had room. -/
theorem room_of_release (inv : WindowInv past w) (oldest : Nat)
    (retained : Retained (past ++ [.release oldest]) (w.glzDecoderWindowRelease oldest)) :
    HasRoom w (.release oldest) := by
  intro other stored live t low high same
  have member := inv.added other stored
  have oldLive : released past ≤ other.hdr.id := by
    rw [← inv.oldest]
    omega
  have found := (retained other (by rw [added_append]; exact List.mem_append.mpr (Or.inl member))
    (by rw [released_append]; simp only [released]; omega)).1
  simp only [waitForImage, glzDecoderWindowRelease] at found
  split at found
  · cases found
  · next img kept =>
      have clear := ((releaseLoop_eq_some _ _ _ _ _ _).mp kept).2
      exact clear t low (by omega) same

theorem room_of_retained (inv : WindowInv past w) (op : WindowOp) (legal : Legal past op)
    {next : SpiceGlzDecoderWindow} (stepped : windowStep w op = some next)
    (retained : Retained (past ++ [op]) next) : HasRoom w op := by
  cases op with
  | add img => exact inv.room_of_add img legal stepped retained
  | release oldest =>
      simp only [windowStep, Option.some.injEq] at stepped
      subst stepped
      exact inv.room_of_release oldest retained

end WindowInv

/-- In every sequence of calls with distinct 64-bit ids, all the calls succeed
and all live images are found after each of them exactly when each call finds
the room it needs. -/
theorem glzDecoderWindow_retains_iff (ops : List WindowOp) (distinct : ((added ops).map (fun img => img.hdr.id)).Nodup)
    (wide : forall img, img ∈ added ops -> img.hdr.id < 2 ^ 64) :
    AllStates windowStep Retained [] glzDecoderWindowNew ops <->
      Meets windowStep (fun _ w op => HasRoom w op) [] glzDecoderWindowNew ops := by
  have keep : forall past w op, WindowInv past w -> Legal past op -> HasRoom w op ->
      Exists fun next => windowStep w op = some next ∧ WindowInv (past ++ [op]) next :=
    fun _ _ op inv legalOp room => inv.step op legalOp room
  have needed : forall past w op next, WindowInv past w -> Legal past op ->
      windowStep w op = some next -> Retained (past ++ [op]) next -> HasRoom w op :=
    fun _ _ op _ inv legalOp stepped retained => inv.room_of_retained op legalOp stepped retained
  exact allStates_iff_meets (fun _ _ inv => inv.retained) keep needed ops [] glzDecoderWindowNew
    WindowInv.new (fun before op after split => legal_of_distinct distinct wide split)

def pixelImage (id : Nat) : GlzImage where
  hdr := { id := id, type := .rgb32, width := 1, height := 1, grossPixels := 1, topDown := true,
           winHeadDist := 0 }
  data := [⟨0, 0, 0, 0⟩]

theorem hasRoom_of_free {w : SpiceGlzDecoderWindow} {img : GlzImage} (free : w.images (img.hdr.id % w.nimages) = none)
    (notLast : img.hdr.id + 1 ≠ 2 ^ 64) : HasRoom w (.add img) := by
  have size : w.sizeFor img.hdr.id = w.nimages := by simp [sizeFor, free]
  refine ⟨?_, ?_, fun last => absurd last notLast⟩
  · intro occupied
    rw [free] at occupied
    cases occupied
  intro other stored _ same
  rw [size] at same
  rw [Stores, same, free] at stored
  cases stored

/-- Image 32 meets image 0 in a table of 16 slots.  One doubling later the two
still share a slot, and image 0 is overwritten although nothing was released. -/
theorem glzDecoderWindow_loses_image_zero :
    Not (forall ops : List WindowOp, ((added ops).map (fun img => img.hdr.id)).Nodup ->
      (forall img, img ∈ added ops -> img.hdr.id < 2 ^ 64) ->
        AllStates windowStep Retained [] glzDecoderWindowNew ops) := by
  intro claim
  have all := claim [.add (pixelImage 0), .add (pixelImage 32)] (by decide) (by decide)
  rcases all _ (List.prefix_refl _) with ⟨w, ran, retained⟩
  have found := (retained (pixelImage 0) (by decide) (by decide)).1
  have lost : (run windowStep glzDecoderWindowNew
      [WindowOp.add (pixelImage 0), .add (pixelImage 32)]).map
        (fun final => final.waitForImage 0) = some false := by decide
  rw [ran] at lost
  have absent : w.waitForImage 0 = false := Option.some.inj lost
  rw [show (pixelImage 0).hdr.id = 0 from rfl, absent] at found
  cases found

/-- A release on the empty window, then two images in different slots. -/
theorem glzDecoderWindow_retains_pair : AllStates windowStep Retained [] glzDecoderWindowNew
      [.release 5, .add (pixelImage 7), .add (pixelImage 6)] := by
  refine (glzDecoderWindow_retains_iff _ (by decide) (by decide)).mpr ?_
  have roomRelease : HasRoom glzDecoderWindowNew (.release 5) := by
    intro other stored
    cases stored
  refine ⟨roomRelease, fun released stepped => ?_⟩
  cases stepped
  refine ⟨hasRoom_of_free rfl (by decide), fun seven stepped => ⟨?_, fun _ _ => trivial⟩⟩
  refine hasRoom_of_free ?_ (by decide)
  have free : (windowStep (glzDecoderWindowNew.glzDecoderWindowRelease 5) (.add (pixelImage 7))).map
      (fun w => w.images ((pixelImage 6).hdr.id % w.nimages)) = some none := by decide
  rw [stepped] at free
  exact Option.some.inj free

end Glz
end Spice
