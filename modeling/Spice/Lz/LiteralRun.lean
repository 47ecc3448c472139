import Spice.Lib.Fill
import Spice.Lz.Common

namespace Spice
namespace Lz

open Lib

/-!
# Writing the stream

`lz.c` and `glz_encoder.c` write bytes through the same functions.  A run of
literal pixels begins with its length, which is not known then: the greatest
one is written, and it is changed, or taken back, when the run ends.

The invariants here say what the bytes written so far decode to, for any
decoder that works in rounds and reads literal runs as they are written.
-/

/-- The bytes of `encode_32`, the highest first. -/
def bytes32 (word : Nat) : List UInt8 :=
  [UInt8.ofNat (word / 2 ^ 24), UInt8.ofNat (word / 2 ^ 16), UInt8.ofNat (word / 2 ^ 8), UInt8.ofNat word]

def encode32 (out : Output UInt8) (word : Nat) : Option (Output UInt8) := out.emitAll (bytes32 word)

def encodeCopyCount (out : Output UInt8) (copyCount : Nat) : Option (Output UInt8) :=
  out.emitMarked (UInt8.ofNat copyCount)

def updateCopyCount (out : Output UInt8) (copyCount : Nat) : Option (Output UInt8) :=
  out.patch (UInt8.ofNat copyCount)

def compressOutputPrev (out : Output UInt8) : Option (Output UInt8) := out.back

/-- The end of a literal run: its length is filled in, or, if there was no
literal, taken back. -/
def closeRun (out : Output UInt8) (copy : Nat) : Option (Output UInt8) :=
  if copy ≠ 0 then updateCopyCount out (copy - 1) else compressOutputPrev out

/-- A literal pixel.  A run of the greatest length is followed by another one. -/
def copyPixel (bytes : List UInt8) (out : Output UInt8) (copy : Nat) : Option (Output UInt8 × Nat) := do
  let out <- out.emitAll bytes
  if copy + 1 = maxCopy then
    let out <- encodeCopyCount out (maxCopy - 1)
    pure (out, 0)
  else pure (out, copy + 1)

theorem copyPixel_eq_some {bytes : List UInt8} {out next : Output UInt8} {copy copied : Nat}
    (short : copy + 1 ≠ maxCopy) (done : copyPixel bytes out copy = some (next, copied)) :
    out.emitAll bytes = some next ∧ copied = copy + 1 := by
  unfold copyPixel at done
  cases emitted : out.emitAll bytes with
  | none =>
      rw [emitted] at done
      cases done
  | some middle =>
      simp only [emitted, Option.bind_eq_bind, Option.bind_some, if_neg short] at done
      cases done
      exact ⟨rfl, rfl⟩

/-! ## What has been written -/

/-- What is left to be decoded. -/
def todo {β : Type} (fill : Fill β) : Nat := fill.left.length

section Streams

variable {α β : Type} (medium : Medium β α) (encodePixel : α -> List UInt8)
    (round : Fill β -> StateT (Input UInt8) Option (Fill β))

def ReadsRuns : Prop :=
  forall (image : List α) (buf : List β) (fill : Fill β) (originals rest : List α), medium.Filled image buf fill ->
    image.drop fill.done.length = originals ++ rest -> originals ≠ [] -> originals.length ≤ maxCopy ->
    Exists fun next =>
      Reads (round fill) (UInt8.ofNat (originals.length - 1) :: originals.flatMap encodePixel) next ∧
      medium.Filled image buf next ∧ next.done.length = fill.done.length + originals.length

variable (image : List α) (buf : List β) (before : List UInt8)

/-- These bytes decode to a buffer that is right up to a position. -/
structure Coded (bytes : List UInt8) (fill : Fill β) : Prop where
  rounds : Rounds todo round bytes ⟨[], buf⟩ fill
  filled : medium.Filled image buf fill

/-- Everything up to a position has been written. -/
def Flushed (out : Output UInt8) (position : Nat) : Prop :=
  Exists fun bytes => Exists fun fill => Coded medium round image buf bytes fill ∧
    fill.done.length = position ∧ out.written = before ++ bytes ∧ out.Ample

/-- Everything up to a position has been written, the last pixels in a literal
run that has not ended. -/
def Pending (out : Output UInt8) (copy position : Nat) : Prop :=
  Exists fun bytes => Exists fun fill => Exists fun originals => Exists fun rest =>
    Coded medium round image buf bytes fill ∧
    image.drop fill.done.length = originals ++ rest ∧ originals.length = copy ∧ copy < maxCopy ∧
    fill.done.length + copy = position ∧
    out.written = before ++ bytes ++ UInt8.ofNat (maxCopy - 1) :: originals.flatMap encodePixel ∧
    out.mark = some (before ++ bytes).length ∧ (copy = 0 -> out.JustMarked) ∧ out.Ample

variable {medium encodePixel round image buf before}

theorem Coded.snoc {bytes token : List UInt8} {fill next : Fill β} (coded : Coded medium round image buf bytes fill)
    (reads : Reads (round fill) token next) (filled : medium.Filled image buf next)
    (longer : fill.done.length < next.done.length) : Coded medium round image buf (bytes ++ token) next := by
  have sizeBefore := coded.filled.size
  have sizeAfter := filled.size
  refine ⟨coded.rounds.snoc reads ?_, filled⟩
  change next.left.length < fill.left.length
  omega

namespace Flushed

variable {out : Output UInt8} {position : Nat}

theorem start (size : buf.length = image.length) (ample : out.Ample) :
    Flushed medium round image buf out.written out 0 :=
  ⟨[], ⟨[], buf⟩, ⟨.refl _, .start size⟩, rfl, (List.append_nil _).symm, ample⟩

variable (encodePixel) in
theorem begin (flushed : Flushed medium round image buf before out position) :
    Exists fun next => encodeCopyCount out (maxCopy - 1) = some next ∧
      Pending medium encodePixel round image buf before next 0 position := by
  rcases flushed with ⟨bytes, fill, coded, length, written, ample⟩
  rcases ample.emitMarked (UInt8.ofNat (maxCopy - 1)) with ⟨next, emitted, all, mark, marked, ampleNext⟩
  refine ⟨next, emitted, bytes, fill, [], image.drop fill.done.length, coded, rfl, rfl, by decide, length, ?_, ?_,
    fun _ => marked, ampleNext⟩
  · rw [all, written]
    rfl
  · rw [mark, written]

theorem token (flushed : Flushed medium round image buf before out position) {bytes : List UInt8} {next : Nat}
    (decodes : forall fill, medium.Filled image buf fill -> fill.done.length = position ->
      Exists fun filled => Reads (round fill) bytes filled ∧ medium.Filled image buf filled ∧
        filled.done.length = next)
    (further : position < next) :
    Exists fun last => out.emitAll bytes = some last ∧ Flushed medium round image buf before last next := by
  rcases flushed with ⟨coding, fill, coded, length, written, ample⟩
  rcases ample.emitAll bytes with ⟨last, emitted, emits⟩
  rcases decodes fill coded.filled length with ⟨filled, reads, right, lengthNext⟩
  refine ⟨last, emitted, coding ++ bytes, filled, coded.snoc reads right (by omega), lengthNext, ?_, emits.ample⟩
  rw [emits.written, written, List.append_assoc]

/-- A run that was closed is read. -/
theorem run (runs : ReadsRuns medium encodePixel round) (flushed : Flushed medium round image buf before out position)
    {originals rest : List α} (here : image.drop position = originals ++ rest) (some : originals ≠ [])
    (short : originals.length ≤ maxCopy) :
    Exists fun middle => Exists fun next => encodeCopyCount out (originals.length - 1) = Option.some middle ∧
      middle.emitAll (originals.flatMap encodePixel) = Option.some next ∧
      Flushed medium round image buf before next (position + originals.length) := by
  rcases flushed with ⟨bytes, fill, coded, length, written, ample⟩
  rcases ample.emitMarked (UInt8.ofNat (originals.length - 1)) with ⟨middle, marked, first, -, -, ampleMiddle⟩
  rcases ampleMiddle.emitAll (originals.flatMap encodePixel) with ⟨next, emitted, emits⟩
  rw [← length] at here
  rcases runs image buf fill originals rest coded.filled here some short with ⟨filled, reads, right, lengthNext⟩
  have positive := List.length_pos_iff.mpr some
  refine ⟨middle, next, marked, emitted, _, filled, coded.snoc reads right (by omega), by omega, ?_, emits.ample⟩
  rw [emits.written, first, written, List.append_assoc, List.append_assoc]
  rfl

theorem decodes (flushed : Flushed medium round image buf before out image.length) (some : image ≠ [])
    (size : buf.length = image.length) :
    Exists fun bytes => Exists fun fill => out.written = before ++ bytes ∧ out.Ample ∧
      Reads (readRounds todo round buf.length ⟨[], buf⟩) bytes fill ∧ medium.Filled image buf fill ∧
      fill.done.length = image.length := by
  rcases flushed with ⟨bytes, fill, coded, length, written, ample⟩
  have positive := List.length_pos_iff.mpr some
  have total := coded.filled.size
  refine ⟨bytes, fill, written, ample, coded.rounds.reads ?_ ?_ _ ?_, coded.filled, length⟩
  · show buf.length ≠ 0
    omega
  · show fill.left.length = 0
    omega
  · exact Nat.le_refl _

end Flushed

namespace Pending

variable {out : Output UInt8} {copy position : Nat}

/-- A run is closed, with its length or without a trace. -/
theorem close (runs : ReadsRuns medium encodePixel round)
    (pending : Pending medium encodePixel round image buf before out copy position) :
    Exists fun next => closeRun out copy = some next ∧ Flushed medium round image buf before next position := by
  rcases pending with ⟨bytes, fill, originals, rest, coded, here, count, small, length, written, mark, marked, ample⟩
  unfold closeRun
  by_cases none : copy = 0
  · rw [if_neg (fun some => some none)]
    have empty : originals = [] := List.length_eq_zero_iff.mp (count.trans none)
    rw [empty, List.flatMap_nil] at written
    rcases ample.back (marked none) written with ⟨next, backed, all, ampleNext⟩
    exact ⟨next, backed, bytes, fill, coded, by omega, all, ampleNext⟩
  · rw [if_pos none]
    rcases ample.patch written mark (UInt8.ofNat (copy - 1)) with ⟨next, patched, all, ampleNext⟩
    rcases runs image buf fill originals rest coded.filled here
      (fun empty => none (by rw [← count, empty]; rfl)) (by omega) with ⟨filled, reads, right, lengthNext⟩
    rw [count] at reads lengthNext
    refine ⟨next, patched, _, filled, coded.snoc reads right (by omega), by omega, ?_, ampleNext⟩
    rw [all, List.append_assoc]

/-- A literal is added to the run, which may be full with it. -/
theorem literal (runs : ReadsRuns medium encodePixel round)
    (pending : Pending medium encodePixel round image buf before out copy position) {original : α}
    (found : image[position]? = some original) :
    Exists fun next => Exists fun copied => copyPixel (encodePixel original) out copy = some (next, copied) ∧
      Pending medium encodePixel round image buf before next copied (position + 1) := by
  rcases pending with ⟨bytes, fill, originals, rest, coded, here, count, small, length, written, mark, -, ample⟩
  rcases ample.emitAll (encodePixel original) with ⟨middle, emitted, emits⟩
  have split : Exists fun others => rest = original :: others := by
    have head : rest.head? = some original := by
      have dropped : image.drop position = rest := by
        rw [← length, ← List.drop_drop, here, ← count, List.drop_left]
      rw [← dropped, List.head?_drop, found]
    cases rest with
    | nil => cases head
    | cons first others =>
        cases head
        exact ⟨others, rfl⟩
  rcases split with ⟨others, split⟩
  have longer : image.drop fill.done.length = (originals ++ [original]) ++ others := by
    rw [here, split, List.append_assoc]
    rfl
  have lengthLonger : (originals ++ [original]).length = copy + 1 := by
    rw [List.length_append, count]
    rfl
  have writtenLonger : middle.written = before ++ bytes ++
      UInt8.ofNat (maxCopy - 1) :: (originals ++ [original]).flatMap encodePixel := by
    rw [emits.written, written, List.flatMap_append, List.flatMap_cons, List.flatMap_nil, List.append_nil,
      List.append_assoc, List.cons_append]
  unfold copyPixel
  rw [emitted]
  by_cases full : copy + 1 = maxCopy
  · -- the length written in advance is that of the full run
    rcases runs image buf fill _ others coded.filled longer (by simp) (by omega) with
      ⟨filled, reads, right, lengthNext⟩
    rw [lengthLonger, full] at reads
    have flushed : Flushed medium round image buf before middle (position + 1) := by
      refine ⟨_, filled, coded.snoc reads right (by omega), by omega, ?_, emits.ample⟩
      rw [writtenLonger, List.append_assoc]
    rcases flushed.begin encodePixel with ⟨next, began, pendingNext⟩
    refine ⟨next, 0, ?_, pendingNext⟩
    simp only [Option.bind_eq_bind, Option.bind_some, if_pos full, began]
    rfl
  · refine ⟨middle, copy + 1, ?_, bytes, fill, _, others, coded, longer, lengthLonger, by omega, by omega,
      writtenLonger, ?_, fun zero => absurd zero (Nat.succ_ne_zero copy), emits.ample⟩
    · simp only [Option.bind_eq_bind, Option.bind_some, if_neg full]
      rfl
    · rw [emits.mark, mark]

end Pending

end Streams

end Lz
end Spice
