import Spice.Lib.Numbers
import Mathlib.Tactic.Common

namespace Spice
namespace Lib

/-!
# Buffered output and input

A stream is written through buffers that a callback supplies one after another,
and read back through buffers that need not be cut at the same places.  An
element that was already written may be marked and changed later, also when
its buffer has been filled meanwhile; the mark is the number of the element.

`Reads` says that a reader takes exactly given elements off its input and
returns a given value, however the input is cut.
-/

variable {α β γ : Type}

/-- The elements written so far over all buffers, the number of the first
element of the current buffer, the room left in it, the callbacks made, the
sizes they return, the elements they made room for, and the mark. -/
structure Output (α : Type) where
  written : List α
  start : Nat
  room : Nat
  asked : Nat
  space : Nat -> Nat
  given : Nat
  mark : Option Nat

namespace Output

/-- Output that begins in a first buffer of the given size. -/
def begin (size : Nat) (space : Nat -> Nat) : Output α :=
  { written := [], start := 0, room := size, asked := 0, space := space, given := size, mark := none }

/-- Write an element, into a new buffer if the current one is full. -/
def emit (out : Output α) (x : α) : Option (Output α) :=
  if out.room = 0 then
    if out.space out.asked = 0 then none
    else some { out with
      written := out.written ++ [x]
      start := out.written.length
      room := out.space out.asked - 1
      asked := out.asked + 1
      given := out.given + out.space out.asked }
  else some { out with written := out.written ++ [x], room := out.room - 1 }

def emitAll (out : Output α) (xs : List α) : Option (Output α) := xs.foldlM emit out

def emitMarked (out : Output α) (x : α) : Option (Output α) :=
  (out.emit x).map (fun next => { next with mark := some (next.written.length - 1) })

/-- Change the marked element. -/
def patch (out : Output α) (x : α) : Option (Output α) :=
  out.mark.map (fun place => { out with written := out.written.set place x })

/-- Take the last element back, which must not leave the buffer. -/
def back (out : Output α) : Option (Output α) :=
  if out.written.length ≤ out.start then none
  else some { out with written := out.written.dropLast, room := out.room + 1 }

/-- Every buffer has room, what was made room for is written or left, and the
current buffer is the last one. -/
structure Ample (out : Output α) : Prop where
  space : forall call, out.space call ≠ 0
  given : out.given = out.written.length + out.room
  start : out.start ≤ out.written.length

/-- The next output holds further elements and the same mark. -/
structure Emits (out next : Output α) (xs : List α) : Prop where
  written : next.written = out.written ++ xs
  mark : next.mark = out.mark
  ample : next.Ample

theorem begin_ample (size : Nat) {space : Nat -> Nat} (positive : forall call, space call ≠ 0) :
    (begin size space : Output α).Ample :=
  ⟨positive, (Nat.zero_add size).symm, Nat.le_refl 0⟩

/-- A buffer with room takes an element. -/
theorem Ample.emit {out : Output α} (ample : out.Ample) (x : α) :
    Exists fun next => out.emit x = some next ∧ Emits out next [x] ∧ next.start < next.written.length := by
  have given := ample.given
  have start := ample.start
  have longer : (out.written ++ [x]).length = out.written.length + 1 := List.length_append
  unfold Output.emit
  split
  · next full =>
      have positive := ample.space out.asked
      rw [if_neg positive]
      refine ⟨_, rfl, ⟨rfl, rfl, ample.space, ?_, ?_⟩, ?_⟩
      · change out.given + out.space out.asked = (out.written ++ [x]).length + (out.space out.asked - 1)
        omega
      · change out.written.length ≤ (out.written ++ [x]).length
        omega
      · change out.written.length < (out.written ++ [x]).length
        omega
  · next room =>
      refine ⟨_, rfl, ⟨rfl, rfl, ample.space, ?_, ?_⟩, ?_⟩
      · change out.given = (out.written ++ [x]).length + (out.room - 1)
        omega
      · change out.start ≤ (out.written ++ [x]).length
        omega
      · change out.start < (out.written ++ [x]).length
        omega

theorem Ample.emitAll {out : Output α} (ample : out.Ample) (xs : List α) :
    Exists fun next => out.emitAll xs = some next ∧ Emits out next xs := by
  induction xs generalizing out with
  | nil => exact ⟨out, rfl, (List.append_nil _).symm, rfl, ample⟩
  | cons x xs ih =>
      rcases ample.emit x with ⟨middle, emitted, first, -⟩
      rcases ih first.ample with ⟨next, rest, second⟩
      refine ⟨next, ?_, ?_, second.mark.trans first.mark, second.ample⟩
      · unfold Output.emitAll at rest ⊢
        rw [List.foldlM_cons, emitted]
        exact rest
      · rw [second.written, first.written, List.append_assoc]
        rfl

/-- The marked element is the last one, in the current buffer. -/
structure JustMarked (out : Output α) : Prop where
  mark : out.mark = some (out.written.length - 1)
  start : out.start < out.written.length

theorem Ample.emitMarked {out : Output α} (ample : out.Ample) (x : α) :
    Exists fun next => out.emitMarked x = some next ∧ next.written = out.written ++ [x] ∧
      next.mark = some out.written.length ∧ next.JustMarked ∧ next.Ample := by
  rcases ample.emit x with ⟨next, emitted, emits, inside⟩
  refine ⟨{ next with mark := some (next.written.length - 1) }, ?_, emits.written, ?_, ⟨rfl, inside⟩, ?_⟩
  · rw [Output.emitMarked, emitted]
    rfl
  · change some (next.written.length - 1) = some out.written.length
    rw [emits.written, List.length_append, List.length_singleton, Nat.add_sub_cancel]
  · exact ⟨emits.ample.space, emits.ample.given, emits.ample.start⟩

/-- The marked element is written again. -/
theorem Ample.patch {out : Output α} (ample : out.Ample) {before after : List α} {old : α}
    (written : out.written = before ++ old :: after) (mark : out.mark = some before.length) (x : α) :
    Exists fun next => out.patch x = some next ∧ next.written = before ++ x :: after ∧ next.Ample := by
  have changed : out.written.set before.length x = before ++ x :: after := by
    rw [written, List.set_append_right _ _ (Nat.le_refl _), Nat.sub_self, List.set_cons_zero]
  have same : (out.written.set before.length x).length = out.written.length := List.length_set
  refine ⟨{ out with written := out.written.set before.length x }, ?_, changed, ample.space, ?_, ?_⟩
  · rw [Output.patch, mark]
    rfl
  · change out.given = (out.written.set before.length x).length + out.room
    rw [same]
    exact ample.given
  · change out.start ≤ (out.written.set before.length x).length
    rw [same]
    exact ample.start

/-- The marked element is taken back. -/
theorem Ample.back {out : Output α} (ample : out.Ample) (marked : out.JustMarked) {before : List α} {old : α}
    (written : out.written = before ++ [old]) :
    Exists fun next => out.back = some next ∧ next.written = before ∧ next.Ample := by
  have inside := marked.start
  have given := ample.given
  have shorter : out.written.dropLast = before := by
    rw [written, List.dropLast_concat]
  have length : out.written.length = before.length + 1 := by
    rw [written, List.length_append, List.length_singleton]
  refine ⟨{ out with written := out.written.dropLast, room := out.room + 1 }, ?_, shorter, ample.space, ?_, ?_⟩
  · rw [Output.back, if_neg (Nat.not_le_of_lt inside)]
  · change out.given = out.written.dropLast.length + (out.room + 1)
    rw [shorter]
    omega
  · change out.start ≤ out.written.dropLast.length
    rw [shorter]
    omega

end Output

/-- What is left of the current buffer, and the buffers the callback will
supply.  An empty one, like none, ends the input. -/
structure Input (α : Type) where
  now : List α
  later : List (List α)

namespace Input

/-- Read an element, from the next buffer if the current one is used up. -/
def next : StateT (Input α) Option α := fun input =>
  match input.now with
  | x :: rest => some (x, { input with now := rest })
  | [] =>
      match input.later with
      | (x :: rest) :: others => some (x, ⟨rest, others⟩)
      | _ => none

/-- Nothing is left. -/
def atEnd (input : Input α) : Bool :=
  input.now.isEmpty && (input.later.head?.getD []).isEmpty

/-- All elements that can still be read. -/
def all (input : Input α) : List α := input.now ++ input.later.flatten

/-- The callback supplies no empty buffer. -/
def Full (input : Input α) : Prop := forall chunk, chunk ∈ input.later -> chunk ≠ []

theorem atEnd_of_all {input : Input α} (empty : input.all = []) (full : input.Full) : input.atEnd = true := by
  rcases input with ⟨now, later⟩
  have parts : now = [] ∧ later.flatten = [] := List.append_eq_nil_iff.mp empty
  have none : later = [] := by
    cases later with
    | nil => rfl
    | cons chunk others => exact absurd (List.append_eq_nil_iff.mp parts.2).1 (full chunk List.mem_cons_self)
  rw [parts.1, none]
  rfl

end Input

/-- The reader takes these elements and returns this value. -/
def Reads (read : StateT (Input α) Option β) (xs : List α) (value : β) : Prop :=
  forall input rest, input.Full -> input.all = xs ++ rest ->
    Exists fun left => read input = some (value, left) ∧ left.Full ∧ left.all = rest

namespace Reads

theorem pure (value : β) : Reads (Pure.pure value : StateT (Input α) Option β) [] value :=
  fun input _ full all => ⟨input, rfl, full, all⟩

theorem bind {first : StateT (Input α) Option β} {second : β -> StateT (Input α) Option γ} {xs ys : List α}
    {middle : β} {value : γ} (one : Reads first xs middle) (two : Reads (second middle) ys value) :
    Reads (first >>= second) (xs ++ ys) value := by
  intro input rest full all
  rw [List.append_assoc] at all
  rcases one input _ full all with ⟨between, read, fullBetween, allBetween⟩
  rcases two between rest fullBetween allBetween with ⟨left, readLeft, fullLeft, allLeft⟩
  refine ⟨left, ?_, fullLeft, allLeft⟩
  show (first input).bind (fun pair => second pair.1 pair.2) = _
  rw [read]
  exact readLeft

theorem next (x : α) : Reads Input.next [x] x := by
  intro input rest full all
  rcases input with ⟨now, later⟩
  cases now with
  | cons head tail =>
      cases all
      exact ⟨⟨tail, later⟩, rfl, full, rfl⟩
  | nil =>
      cases later with
      | nil => cases all
      | cons chunk others =>
          cases chunk with
          | nil => exact absurd rfl (full [] List.mem_cons_self)
          | cons head tail =>
              cases all
              exact ⟨⟨tail, others⟩, rfl, fun other member => full other (List.mem_cons_of_mem _ member), rfl⟩

theorem lift {result : Option β} {value : β} (found : result = some value) :
    Reads (liftM result : StateT (Input α) Option β) [] value := by
  subst found
  exact fun input _ full all => ⟨input, rfl, full, all⟩

theorem congr {read other : StateT (Input α) Option β} {xs ys : List α} {value : β} (reads : Reads read xs value)
    (same : other = read) (elements : ys = xs) : Reads other ys value := by
  rw [same, elements]
  exact reads

end Reads

/-! ## Reading in rounds -/

section Rounds

variable {σ : Type} (todo : σ -> Nat) (round : σ -> StateT (Input α) Option σ)

/-- Rounds until nothing is left to do.  Every round leaves less to do, so that
the work at the beginning bounds their number. -/
def readRounds : Nat -> σ -> StateT (Input α) Option σ
  | 0, _ => failure
  | fuel + 1, state => do
      let next <- round state
      if todo next = 0 then pure next else readRounds fuel next

/-- Some rounds take these elements and lead from one state to another. -/
inductive Rounds : List α -> σ -> σ -> Prop
  | refl (state : σ) : Rounds [] state state
  | cons {xs ys : List α} {first middle last : σ} (reads : Reads (round first) xs middle)
      (less : todo middle < todo first) (rest : Rounds ys middle last) : Rounds (xs ++ ys) first last

namespace Rounds

variable {todo round} {first middle last : σ} {xs ys : List α}

theorem trans (one : Rounds todo round xs first middle) (two : Rounds todo round ys middle last) :
    Rounds todo round (xs ++ ys) first last := by
  induction one with
  | refl state => exact two
  | cons reads less _ ih =>
      rw [List.append_assoc]
      exact cons reads less (ih two)

theorem snoc (one : Rounds todo round xs first middle) (reads : Reads (round middle) ys last)
    (less : todo last < todo middle) : Rounds todo round (xs ++ ys) first last := by
  have single := cons reads less (refl last)
  rw [List.append_nil] at single
  exact one.trans single

theorem reads (rounds : Rounds todo round xs first last) (some : todo first ≠ 0) (finished : todo last = 0)
    (fuel : Nat) (enough : todo first ≤ fuel) : Reads (readRounds todo round fuel first) xs last := by
  induction rounds generalizing fuel with
  | refl state => exact absurd finished some
  | cons reads less rest ih =>
      next xs ys first middle last =>
        cases fuel with
        | zero => exact absurd (Nat.le_zero.mp enough) some
        | succ fuel =>
            refine reads.bind ?_
            by_cases ended : todo middle = 0
            · rw [if_pos ended]
              cases rest with
              | refl _ => exact Reads.pure _
              | cons _ more _ => omega
            · rw [if_neg ended]
              exact ih ended finished fuel (by omega)

end Rounds

end Rounds

end Lib
end Spice
