import Spice.Lz.Decompress
import Spice.Lz.MatchSearch

namespace Spice
namespace Lz

open Lib

/-!
# Tokens read back

What the compressor writes for a match, and for a run of literal pixels, is
what one round of the decompressor reads.
-/

theorem toNat_ofNat_of_lt {n : Nat} (small : n < 256) : (UInt8.ofNat n).toNat = n := by
  rw [UInt8.toNat_ofNat']
  exact Nat.mod_eq_of_lt small

/-- The length of a match comes back. -/
theorem readLenLoop_lenBytes {len start : Nat} (bound : Nat) (enough : len ≤ bound) (small : start + len < 2 ^ 32)
    (fuel : Nat) (rounds : (lenBytes bound len).length ≤ fuel) :
    Reads (readLenLoop fuel start) (lenBytes bound len) (start + len) := by
  induction bound generalizing len start fuel with
  | zero =>
      have none : len = 0 := Nat.le_zero.mp enough
      subst none
      cases fuel with
      | zero => exact absurd rounds (by decide)
      | succ fuel => exact (Reads.next 0).bind (Reads.congr (Reads.pure (start + 0))
          (congrArg pure (Nat.mod_eq_of_lt small)) rfl)
  | succ bound ih =>
      unfold lenBytes at rounds ⊢
      cases fuel with
      | zero => split at rounds <;> exact absurd rounds (by simp)
      | succ fuel =>
          split
          · next more =>
              rw [if_pos more, List.length_cons] at rounds
              have rest := ih (show len - 255 ≤ bound by omega) (show start + 255 + (len - 255) < 2 ^ 32 by omega) fuel
                (by omega)
              rw [show start + 255 + (len - 255) = start + len by omega] at rest
              refine (Reads.next 255).bind (rest.congr ?_ rfl)
              have wrap : (start + (255 : UInt8).toNat) % 2 ^ 32 = start + 255 :=
                Nat.mod_eq_of_lt (show start + 255 < 2 ^ 32 by omega)
              simp only [wrap, if_true]
          · next less =>
              have value : (UInt8.ofNat len).toNat = len := toNat_ofNat_of_lt (by omega)
              have short : UInt8.ofNat len ≠ 255 := by
                intro same
                have numbers := congrArg UInt8.toNat same
                rw [value] at numbers
                exact less (by rw [numbers]; decide)
              refine (Reads.next (UInt8.ofNat len)).bind (Reads.congr (Reads.pure (start + len)) ?_ rfl)
              simp only [value, Nat.mod_eq_of_lt small, if_neg short]

theorem readLen_lenBytes {len start : Nat} (small : start + len < 2 ^ 32) :
    Reads (readLen start) (lenBytes len len) (start + len) := by
  intro input rest full all
  refine readLenLoop_lenBytes len (Nat.le_refl _) small input.all.length ?_ input rest full all
  rw [all, List.length_append]
  omega

theorem ctrl_toNat {high low : Nat} (len : high < 8) (ofs : low < 32) :
    (UInt8.ofNat (high * 32 + low)).toNat / 32 = high ∧ (UInt8.ofNat (high * 32 + low)).toNat % 32 = low := by
  rw [toNat_ofNat_of_lt (by omega)]
  omega

theorem readLength_short {ctrl : UInt8} {len : Nat} (positive : 1 ≤ len) (short : len < 7)
    (bits : ctrl.toNat / 32 = len) : Reads (readLength ctrl) [] (len - 1) := by
  unfold readLength
  simp only [bits]
  rw [if_neg (by omega)]
  exact Reads.pure (len - 1)

theorem readLength_long {ctrl : UInt8} {len : Nat} (long : 7 ≤ len) (small : len < 2 ^ 32)
    (bits : ctrl.toNat / 32 = 7) : Reads (readLength ctrl) (lenBytes (len - 7) (len - 7)) (len - 1) := by
  unfold readLength
  have length := readLen_lenBytes (show 7 - 1 + (len - 7) < 2 ^ 32 by omega)
  rw [show 7 - 1 + (len - 7) = len - 1 by omega] at length
  rw [bits]
  exact length

theorem readDistance_near {ctrl : UInt8} {distance : Nat} (near : distance < maxDistance)
    (high : ctrl.toNat % 32 = distance / 256) : Reads (readDistance ctrl) [UInt8.ofNat (distance % 256)] distance := by
  have low : (UInt8.ofNat (distance % 256)).toNat = distance % 256 := toNat_ofNat_of_lt (Nat.mod_lt _ (by decide))
  have notFar : Not (UInt8.ofNat (distance % 256) = 255 ∧ ctrl.toNat % 32 = 31) := by
    rintro ⟨last, first⟩
    have numbers := congrArg UInt8.toNat last
    rw [low] at numbers
    have marker : (255 : UInt8).toNat = 255 := rfl
    unfold maxDistance at near
    omega
  refine (Reads.next _).bind (Reads.congr (Reads.pure distance) ?_ rfl)
  rw [if_neg notFar, low, high]
  congr 1
  omega

theorem readDistance_far {ctrl : UInt8} {distance : Nat} (far : maxDistance ≤ distance)
    (inRange : distance < 2 ^ 16 + maxDistance) (high : ctrl.toNat % 32 = 31) :
    Reads (readDistance ctrl) [255, UInt8.ofNat ((distance - maxDistance) / 256),
      UInt8.ofNat ((distance - maxDistance) % 256)] distance := by
  have first : (UInt8.ofNat ((distance - maxDistance) / 256)).toNat = (distance - maxDistance) / 256 :=
    toNat_ofNat_of_lt (by omega)
  have second : (UInt8.ofNat ((distance - maxDistance) % 256)).toNat = (distance - maxDistance) % 256 :=
    toNat_ofNat_of_lt (by omega)
  refine (Reads.next 255).bind ?_
  rw [if_pos ⟨rfl, high⟩]
  refine (Reads.next _).bind ((Reads.next _).bind ?_)
  rw [first, second, show (distance - maxDistance) / 256 * 256 + (distance - maxDistance) % 256 + maxDistance =
    distance by omega]
  exact Reads.pure distance

/-- A whole match comes back. -/
theorem reads_matchBytes {distance len : Nat} (positive : 1 ≤ len) (small : len < 2 ^ 32)
    (inRange : distance < 2 ^ 16 + maxDistance) :
    Exists fun ctrl => Exists fun lengthBytes => Exists fun distanceBytes =>
      matchBytes distance len = ctrl :: (lengthBytes ++ distanceBytes) ∧ maxCopy ≤ ctrl.toNat ∧
      Reads (readLength ctrl) lengthBytes (len - 1) ∧ Reads (readDistance ctrl) distanceBytes distance := by
  unfold matchBytes
  split
  · next near =>
      have high : distance / 256 < 32 := by
        unfold maxDistance at near
        omega
      split
      · next short =>
          rcases ctrl_toNat (show len < 8 by omega) high with ⟨lenBits, ofsBits⟩
          refine ⟨_, [], _, rfl, ?_, readLength_short positive short lenBits, readDistance_near near ofsBits⟩
          unfold maxCopy
          omega
      · next long =>
          rcases ctrl_toNat (show 7 < 8 by decide) high with ⟨lenBits, ofsBits⟩
          refine ⟨_, _, _, rfl, ?_, readLength_long (by omega) small lenBits, readDistance_near near ofsBits⟩
          unfold maxCopy
          omega
  · next far =>
      split
      · next short =>
          rcases ctrl_toNat (show len < 8 by omega) (show 31 < 32 by decide) with ⟨lenBits, ofsBits⟩
          refine ⟨_, [], _, rfl, ?_, readLength_short positive short lenBits,
            readDistance_far (Nat.le_of_not_lt far) inRange ofsBits⟩
          unfold maxCopy
          omega
      · next long =>
          rcases ctrl_toNat (show 7 < 8 by decide) (show 31 < 32 by decide) with ⟨lenBits, ofsBits⟩
          refine ⟨_, _, _, rfl, ?_, readLength_long (by omega) small lenBits,
            readDistance_far (Nat.le_of_not_lt far) inRange ofsBits⟩
          unfold maxCopy
          omega

section Rounds

variable {Pixel : Type} {template : Template} {ops : PixelOps Pixel} {out : OutOps Pixel}

/-- What the macros of the two templates have in common: the same pixels are
an equivalence, a literal pixel is read back as the same one, writing over an
old pixel keeps it the same, and keeps what `keeps` says. -/
structure Agree (ops : PixelOps Pixel) (out : OutOps Pixel) (keeps : Pixel -> Pixel -> Prop) : Prop
    extends ops.Lawful where
  reads : forall p, Exists fun value => Reads out.compPixel (ops.encodePixel p) value ∧ ops.samePixel value p = true
  merge : forall {value p} old, ops.samePixel value p = true -> ops.samePixel (out.merge old value) p = true
  keeps : forall old value, keeps old (out.merge old value)

/-- The buffer of the decompressor as a medium for the image. -/
def Agree.medium {keeps : Pixel -> Pixel -> Prop} (agree : Agree ops out keeps) : Medium Pixel Pixel where
  merge := out.merge
  shows value p := ops.samePixel value p = true
  keeps := keeps
  same p q := ops.samePixel p q = true
  shows_same := agree.trans
  shows_merge := agree.merge
  keeps_merge := agree.keeps

variable {keeps : Pixel -> Pixel -> Prop} {image buf : List Pixel} {fill : Fill Pixel}

/-- A pixel that was written is read. -/
theorem reads_copyComp (agree : Agree ops out keeps) {originals rest : List Pixel}
    (filled : agree.medium.Filled image buf fill) (here : image.drop fill.done.length = originals ++ rest) :
    Exists fun next => Reads (copyComp out originals.length fill) (originals.flatMap ops.encodePixel) next ∧
      agree.medium.Filled image buf next ∧ next.done.length = fill.done.length + originals.length := by
  induction originals generalizing fill with
  | nil => exact ⟨fill, Reads.pure fill, filled, rfl⟩
  | cons original originals ih =>
      rcases agree.reads original with ⟨value, reads, same⟩
      have found : image[fill.done.length]? = some original := by
        rw [← List.head?_drop, here]
        rfl
      rcases filled.put found same with ⟨middle, written, filledMiddle, length⟩
      have hereMiddle : image.drop middle.done.length = originals ++ rest := by
        rw [length, ← List.drop_drop, here]
        rfl
      rcases ih filledMiddle hereMiddle with ⟨next, readsRest, filledNext, lengthNext⟩
      refine ⟨next, ?_, filledNext, ?_⟩
      · rw [List.flatMap_cons]
        exact reads.bind ((Reads.lift written).bind readsRest)
      · rw [lengthNext, length, List.length_cons]
        omega

/-- The decoder reads literal runs as they are written. -/
theorem readsRuns (agree : Agree ops out keeps) :
    ReadsRuns agree.medium ops.encodePixel (decompressRound template out) := by
  intro image buf fill originals rest filled here some short
  rcases reads_copyComp agree filled here with ⟨next, reads, filledNext, length⟩
  have positive : 0 < originals.length := List.length_pos_iff.mpr some
  have size := filled.size
  have fits : fill.done.length + originals.length ≤ image.length := by
    have total := congrArg List.length here
    rw [List.length_drop, List.length_append] at total
    omega
  unfold maxCopy at short
  have count : (UInt8.ofNat (originals.length - 1)).toNat = originals.length - 1 := toNat_ofNat_of_lt (by omega)
  refine ⟨next, (Reads.next _).bind ?_, filledNext, length⟩
  rw [count, if_neg (by unfold maxCopy; omega), if_neg (by omega), Nat.sub_add_cancel positive]
  exact reads

/-- A match is copied. -/
theorem copyMatch_filled (agree : Agree ops out keeps) {len ofs : Nat} (filled : agree.medium.Filled image buf fill)
    (positive : 1 ≤ ofs) (earlier : ofs ≤ fill.done.length) (inside : fill.done.length + len ≤ image.length)
    (same : forall step one two, step < len -> image[fill.done.length - ofs + step]? = some one ->
      image[fill.done.length + step]? = some two -> ops.samePixel one two = true) :
    Exists fun next => copyMatch out len ofs fill = some next ∧ agree.medium.Filled image buf next ∧
      next.done.length = fill.done.length + len := by
  have size := filled.size
  unfold copyMatch
  rw [if_neg (by omega)]
  by_cases run : ofs = 1
  · subst run
    rw [if_pos rfl]
    have value := List.getElem?_eq_getElem (show fill.done.length - 1 < fill.done.length by omega)
    have original := List.getElem?_eq_getElem (show fill.done.length - 1 < image.length by omega)
    have shown := filled.shown _ _ _ value original
    rw [value]
    refine filled.putRun len inside ?_
    -- all pixels of the run are the one before it
    intro step
    induction step with
    | zero =>
        intro two below found
        exact agree.trans shown (same 0 _ _ below original found)
    | succ step ih =>
        intro two below found
        have previous := List.getElem?_eq_getElem (show fill.done.length + step < image.length by omega)
        refine agree.trans (ih _ (by omega) previous) (same (step + 1) _ _ below ?_ found)
        rw [show fill.done.length - 1 + (step + 1) = fill.done.length + step by omega]
        exact previous
  · rw [if_neg run]
    exact filled.copy len (fill.done.length - ofs) (by omega) inside same

/-- A match that was written is read and copied. -/
theorem reads_match (agree : Agree ops out keeps) {distance len : Nat} (filled : agree.medium.Filled image buf fill)
    (positive : 1 ≤ len) (small : len < 2 ^ 32) (inRange : distance < 2 ^ 16 + maxDistance)
    (earlier : distance + 1 ≤ fill.done.length)
    (inside : fill.done.length + (len - 1 + template.lenFix) ≤ image.length)
    (same : forall step one two, step < len - 1 + template.lenFix ->
      image[fill.done.length - (distance + 1) + step]? = some one ->
      image[fill.done.length + step]? = some two -> ops.samePixel one two = true) :
    Exists fun next => Reads (decompressRound template out fill) (matchBytes distance len) next ∧
      agree.medium.Filled image buf next ∧
      next.done.length = fill.done.length + (len - 1 + template.lenFix) := by
  rcases reads_matchBytes positive small inRange with ⟨ctrl, lengthBytes, distanceBytes, bytes, big, length, ofs⟩
  rcases copyMatch_filled agree filled (Nat.succ_pos distance) earlier inside same with
    ⟨next, copied, filledNext, lengthNext⟩
  refine ⟨next, ?_, filledNext, lengthNext⟩
  rw [bytes]
  refine (Reads.next ctrl).bind ?_
  rw [if_pos big]
  refine length.bind ?_
  rw [← List.append_nil distanceBytes]
  exact ofs.bind (Reads.lift copied)

end Rounds

end Lz
end Spice
