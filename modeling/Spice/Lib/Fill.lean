import Spice.Lib.Buffered

namespace Spice
namespace Lib

/-!
# Filling a buffer by copying

A decoder fills a buffer from left to right, with values it reads and with
copies of what it has written before.  The buffer is the part already written
and the part still to be written, with its old contents.  Writing a value may
keep something of the old contents.

The argument for a copy is the same for all such decoders: a copied value is
as good at its new place as it was at its old one if the originals at the two
places are the same.
-/

variable {α β σ : Type}

/-- The written and the unwritten part of a buffer. -/
structure Fill (β : Type) where
  done : List β
  left : List β

/-- How a value is written over an old one, when it shows an original, what it
keeps of the old one, and which originals are shown by the same values. -/
structure Medium (β α : Type) where
  merge : β -> β -> β
  shows : β -> α -> Prop
  keeps : β -> β -> Prop
  same : α -> α -> Prop
  shows_same : forall {value one two}, shows value one -> same one two -> shows value two
  shows_merge : forall {value original} old, shows value original -> shows (merge old value) original
  keeps_merge : forall old value, keeps old (merge old value)

namespace Fill

variable (merge : β -> β -> β)

/-- Write a value. -/
def put (fill : Fill β) (value : β) : Option (Fill β) :=
  match fill.left with
  | [] => none
  | old :: left => some ⟨fill.done ++ [merge old value], left⟩

/-- Copy a number of values, one by one, from the written part. -/
def copy : Nat -> Nat -> Fill β -> Option (Fill β)
  | 0, _, fill => some fill
  | len + 1, ref, fill =>
      match fill.done[ref]? with
      | none => none
      | some value =>
          match fill.put merge value with
          | none => none
          | some next => copy len (ref + 1) next

/-- Write one value a number of times. -/
def putRun : Nat -> β -> Fill β -> Option (Fill β)
  | 0, _, fill => some fill
  | len + 1, value, fill =>
      match fill.put merge value with
      | none => none
      | some next => putRun len value next

end Fill

/-- The written part of the buffer shows the image, and keeps what it must. -/
structure Medium.Filled (medium : Medium β α) (image : List α) (buf : List β) (fill : Fill β) : Prop where
  size : fill.done.length + fill.left.length = image.length
  left : fill.left = buf.drop fill.done.length
  shown : forall (place : Nat) value original,
    fill.done[place]? = some value -> image[place]? = some original -> medium.shows value original
  kept : forall (place : Nat) value old,
    fill.done[place]? = some value -> buf[place]? = some old -> medium.keeps old value

namespace Medium
namespace Filled

variable {medium : Medium β α} {image : List α} {buf : List β} {fill : Fill β}

theorem start (size : buf.length = image.length) : medium.Filled image buf ⟨[], buf⟩ where
  size := by rw [← size]; exact Nat.zero_add _
  left := rfl
  shown := by intro place value original found; cases found
  kept := by intro place value old found; cases found

/-- The next value is put in its place. -/
theorem put (filled : medium.Filled image buf fill) {value : β} {original : α}
    (here : image[fill.done.length]? = some original) (shows : medium.shows value original) :
    Exists fun next => fill.put medium.merge value = some next ∧ medium.Filled image buf next ∧
      next.done.length = fill.done.length + 1 := by
  have inside := (List.getElem?_eq_some_iff.mp here).1
  have size := filled.size
  have left := filled.left
  unfold Fill.put
  split
  · next empty =>
      rw [empty] at size
      exact absurd inside (by simpa using Nat.le_of_eq size.symm)
  · next old rest split =>
      have length : (fill.done ++ [medium.merge old value]).length = fill.done.length + 1 := List.length_append
      have oldHere : buf[fill.done.length]? = some old := by
        rw [← List.head?_drop, ← left, split]
        rfl
      refine ⟨⟨fill.done ++ [medium.merge old value], rest⟩, rfl, ⟨?_, ?_, ?_, ?_⟩, length⟩
      · change (fill.done ++ [medium.merge old value]).length + rest.length = _
        rw [split, List.length_cons] at size
        rw [length]
        omega
      · change rest = buf.drop (fill.done ++ [medium.merge old value]).length
        rw [length, ← List.drop_drop, ← left, split]
        rfl
      · intro place other source found there
        change (fill.done ++ [medium.merge old value])[place]? = some other at found
        rcases Nat.lt_or_ge place fill.done.length with before | after
        · rw [List.getElem?_append_left before] at found
          exact filled.shown place other source found there
        · rw [List.getElem?_append_right after] at found
          have same : place = fill.done.length := by
            have bound := (List.getElem?_eq_some_iff.mp found).1
            rw [List.length_singleton] at bound
            omega
          subst same
          rw [Nat.sub_self] at found
          cases found
          rw [here] at there
          cases there
          exact medium.shows_merge old shows
      · intro place other before found there
        change (fill.done ++ [medium.merge old value])[place]? = some other at found
        rcases Nat.lt_or_ge place fill.done.length with earlier | after
        · rw [List.getElem?_append_left earlier] at found
          exact filled.kept place other before found there
        · rw [List.getElem?_append_right after] at found
          have same : place = fill.done.length := by
            have bound := (List.getElem?_eq_some_iff.mp found).1
            rw [List.length_singleton] at bound
            omega
          subst same
          rw [Nat.sub_self] at found
          cases found
          rw [oldHere] at there
          cases there
          exact medium.keeps_merge old value

/-- A part that is there already is copied. -/
theorem copy (filled : medium.Filled image buf fill) (len ref : Nat) (earlier : ref < fill.done.length)
    (inside : fill.done.length + len ≤ image.length)
    (same : forall step one two, step < len -> image[ref + step]? = some one ->
      image[fill.done.length + step]? = some two -> medium.same one two) :
    Exists fun next => Fill.copy medium.merge len ref fill = some next ∧ medium.Filled image buf next ∧
      next.done.length = fill.done.length + len := by
  induction len generalizing fill ref with
  | zero => exact ⟨fill, rfl, filled, rfl⟩
  | succ len ih =>
      have value := List.getElem?_eq_getElem earlier
      have source := List.getElem?_eq_getElem (show ref < image.length by omega)
      have target := List.getElem?_eq_getElem (show fill.done.length < image.length by omega)
      have shows := medium.shows_same (filled.shown ref _ _ value source)
        (same 0 _ _ (Nat.succ_pos len) source target)
      rcases filled.put target shows with ⟨middle, written, filledMiddle, length⟩
      rcases ih filledMiddle (ref + 1) (by omega) (by omega) (fun step one two below first second =>
        same (step + 1) one two (by omega) (by rwa [← Nat.add_assoc, Nat.add_right_comm])
          (by rwa [← Nat.add_assoc, Nat.add_right_comm, ← length])) with ⟨next, copied, filledNext, lengthNext⟩
      refine ⟨next, ?_, filledNext, by omega⟩
      simp only [Fill.copy, value, written]
      exact copied

/-- A run of values that show the same is put. -/
theorem putRun (filled : medium.Filled image buf fill) {value : β} (len : Nat)
    (inside : fill.done.length + len ≤ image.length)
    (shows : forall step original, step < len -> image[fill.done.length + step]? = some original ->
      medium.shows value original) :
    Exists fun next => Fill.putRun medium.merge len value fill = some next ∧ medium.Filled image buf next ∧
      next.done.length = fill.done.length + len := by
  induction len generalizing fill with
  | zero => exact ⟨fill, rfl, filled, rfl⟩
  | succ len ih =>
      have target := List.getElem?_eq_getElem (show fill.done.length < image.length by omega)
      rcases filled.put target (shows 0 _ (Nat.succ_pos len) target) with ⟨middle, written, filledMiddle, length⟩
      rcases ih filledMiddle (by omega) (fun step original below found =>
        shows (step + 1) original (by omega) (by rwa [← Nat.add_assoc, Nat.add_right_comm, ← length])) with
        ⟨next, copied, filledNext, lengthNext⟩
      refine ⟨next, ?_, filledNext, by omega⟩
      simp only [Fill.putRun, written]
      exact copied

end Filled
end Medium

end Lib
end Spice
