import Spice.Lib.Numbers
import Mathlib.Data.List.Basic
import Mathlib.Data.List.Range

namespace Spice
namespace Lib

/-!
# Filling a buffer from its start

A decoder writes a buffer from its first place on, and copies from what it has written
already or from other memory.  Its accesses are kept as a list, the newest first.  They are
contained when every write is inside of the buffer, every read is of a place that was
written before, and every fetch is of a place that its source holds.
-/

universe u

variable {Source : Type u}

/-- An access of the buffer, or of one of the sources. -/
inductive Access (Source : Type u)
  | write (place : Nat)
  | read (place : Int)
  | fetch (source : Source) (place : Nat)
deriving DecidableEq

variable (holds : Source -> Nat -> Prop) (size : Int)

/-- An access after some older ones. -/
def Access.Inside (older : List (Access Source)) : Access Source -> Prop
  | .write place => (place : Int) < size
  | .read place => 0 ≤ place ∧ .write place.toNat ∈ older
  | .fetch source place => holds source place

def Contained : List (Access Source) -> Prop
  | [] => True
  | access :: older => access.Inside holds size older ∧ Contained older

def Access.written : Access Source -> Option Nat
  | .write place => some place
  | _ => none

/-- The places that were written, the last one first. -/
def writes (trace : List (Access Source)) : List Nat := trace.filterMap Access.written

/-- Contained accesses write inside of the size. -/
theorem Contained.lt_of_mem_writes {holds : Source -> Nat -> Prop} {size : Int} {place : Nat} :
    forall {trace : List (Access Source)}, Contained holds size trace -> place ∈ writes trace ->
      (place : Int) < size := by
  intro trace
  induction trace with
  | nil => exact fun _ member => by cases member
  | cons access older ih =>
      rintro ⟨inside, contained⟩ member
      cases access with
      | write other =>
          rcases List.mem_cons.mp member with rfl | member
          · exact inside
          · exact ih contained member
      | read other => exact ih contained member
      | fetch source other => exact ih contained member

/-- The buffer is filled up to a place, by contained accesses. -/
structure Filled (place : Nat) (trace : List (Access Source)) : Prop where
  contained : Contained holds size trace
  writes : writes trace = (List.range place).reverse

variable {holds size}

theorem Filled.start : Filled holds size 0 [] := ⟨trivial, rfl⟩

variable {trace : List (Access Source)}

theorem Filled.write_mem {place : Nat} (filled : Filled holds size place trace) {other : Nat}
    (before : other < place) : .write other ∈ trace := by
  have member : other ∈ Lib.writes trace := by
    rw [filled.writes, List.mem_reverse, List.mem_range]
    exact before
  rcases List.mem_filterMap.mp member with ⟨access, isMember, isWrite⟩
  cases access with
  | write place =>
      cases isWrite
      exact isMember
  | read place => cases isWrite
  | fetch source place => cases isWrite

theorem Filled.write {place : Nat} (filled : Filled holds size place trace)
    (inside : (place : Int) < size) : Filled holds size (place + 1) (.write place :: trace) where
  contained := ⟨inside, filled.contained⟩
  writes := by
    show place :: Lib.writes trace = _
    rw [filled.writes, List.range_succ, List.reverse_append]
    rfl

theorem Filled.read {place : Nat} (filled : Filled holds size place trace) {other : Int}
    (start : 0 ≤ other) (before : other < place) : Filled holds size place (.read other :: trace) where
  contained := ⟨⟨start, filled.write_mem (by omega)⟩, filled.contained⟩
  writes := filled.writes

theorem Filled.fetch {place : Nat} (filled : Filled holds size place trace) {source : Source}
    {other : Nat} (held : holds source other) : Filled holds size place (.fetch source other :: trace) where
  contained := ⟨held, filled.contained⟩
  writes := filled.writes

/-- Write to some places in order, without a check between them. -/
def writeAll : Nat -> Nat -> List (Access Source) -> List (Access Source)
  | 0, _, trace => trace
  | count + 1, place, trace => writeAll count (place + 1) (.write place :: trace)

theorem Filled.writeAll {count place : Nat} (filled : Filled holds size place trace)
    (inside : ((place + count : Nat) : Int) ≤ size) :
    Filled holds size (place + count) (Lib.writeAll count place trace) := by
  induction count generalizing place trace with
  | zero => exact filled
  | succ count ih =>
      have next := ih (filled.write (by omega)) (by omega)
      rw [Nat.add_right_comm, Nat.add_assoc] at next
      exact next

theorem Contained.of_suffix {older : List (Access Source)} (contained : Contained holds size trace)
    (suffix : older <:+ trace) :
    Contained holds size older := by
  rcases suffix with ⟨newer, rfl⟩
  induction newer with
  | nil => exact contained
  | cons access newer ih => exact ih contained.2

theorem suffix_writeAll (count place : Nat) (trace : List (Access Source)) : trace <:+ writeAll count place trace := by
  induction count generalizing place trace with
  | zero => exact List.suffix_refl trace
  | succ count ih => exact (List.suffix_cons _ _).trans (ih (place + 1) _)

/-! ## Runs of writes

After every write it is checked that the next place is not past the end; a check that fails
ends the run with the accesses up to there. -/

def writeChecked (size : Int) (place : Nat) (trace : List (Access Source)) :
    Except (List (Access Source)) (List (Access Source)) :=
  if ((place + 1 : Nat) : Int) ≤ size then .ok (.write place :: trace) else .error (.write place :: trace)

/-- Write to some places in order. -/
def writeRun (size : Int) : Nat -> Nat -> List (Access Source) -> Except (List (Access Source)) (List (Access Source))
  | 0, _, trace => .ok trace
  | count + 1, place, trace =>
      match writeChecked size place trace with
      | .error trace => .error trace
      | .ok trace => writeRun size count (place + 1) trace

/-- Copy some places of the buffer itself, each one before its write. -/
def copyRun (size : Int) : Nat -> Int -> Nat -> List (Access Source) ->
    Except (List (Access Source)) (List (Access Source))
  | 0, _, _, trace => .ok trace
  | count + 1, ref, place, trace =>
      match writeChecked size place (.read ref :: trace) with
      | .error trace => .error trace
      | .ok trace => copyRun size count (ref + 1) (place + 1) trace

/-- What an access list has grown to, whether the run ended or not. -/
def grown : Except (List (Access Source)) (List (Access Source)) -> List (Access Source)
  | .error trace => trace
  | .ok trace => trace

theorem suffix_writeRun (size : Int) (count place : Nat) (trace : List (Access Source)) :
    trace <:+ grown (writeRun size count place trace) := by
  induction count generalizing place trace with
  | zero => exact List.suffix_refl trace
  | succ count ih =>
      unfold writeRun writeChecked
      split
      · rename_i failed
        split at failed <;> cases failed
        exact List.suffix_cons _ _
      · rename_i written
        split at written <;> cases written
        exact (List.suffix_cons _ _).trans (ih (place + 1) _)

/-- A copy only adds to the trace. -/
theorem suffix_copyRun (size : Int) (count : Nat) (ref : Int) (place : Nat) (trace : List (Access Source)) :
    trace <:+ grown (copyRun size count ref place trace) := by
  induction count generalizing ref place trace with
  | zero => exact List.suffix_refl trace
  | succ count ih =>
      have both (access other : Access Source) : trace <:+ access :: other :: trace :=
        (List.suffix_cons _ _).trans (List.suffix_cons _ _)
      unfold copyRun writeChecked
      split
      · rename_i failed
        split at failed <;> cases failed
        exact both _ _
      · rename_i written
        split at written <;> cases written
        exact (both _ _).trans (ih (ref + 1) (place + 1) _)

theorem Filled.writeRun {count place : Nat} (filled : Filled holds size place trace)
    (inside : ((place + count : Nat) : Int) ≤ size) : Exists fun next =>
      Lib.writeRun size count place trace = .ok next ∧ Filled holds size (place + count) next := by
  induction count generalizing place trace with
  | zero => exact ⟨trace, rfl, filled⟩
  | succ count ih =>
      rcases ih (filled.write (by omega)) (by omega) with ⟨next, ran, isFilled⟩
      rw [Nat.add_right_comm, Nat.add_assoc] at isFilled
      refine ⟨next, ?_, isFilled⟩
      unfold Lib.writeRun writeChecked
      rw [if_pos (by omega)]
      exact ran

theorem Filled.copyRun {count place : Nat} {ref : Int} (filled : Filled holds size place trace)
    (start : 0 ≤ ref) (before : ref < place) (inside : ((place + count : Nat) : Int) ≤ size) : Exists fun next =>
      Lib.copyRun size count ref place trace = .ok next ∧ Filled holds size (place + count) next := by
  induction count generalizing place ref trace with
  | zero => exact ⟨trace, rfl, filled⟩
  | succ count ih =>
      have later : 0 ≤ ref + 1 := by omega
      rcases ih ((filled.read start before).write (by omega)) later (by omega) (by omega) with ⟨next, ran, isFilled⟩
      rw [Nat.add_right_comm, Nat.add_assoc] at isFilled
      refine ⟨next, ?_, isFilled⟩
      unfold Lib.copyRun writeChecked
      rw [if_pos (by omega)]
      exact ran

end Lib
end Spice
