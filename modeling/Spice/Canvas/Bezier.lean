import Spice.Lib.Int32
import Mathlib.Data.List.Basic
import Mathlib.Data.Nat.Log

namespace Spice
namespace Canvas
namespace Bezier

open Lib

/-!
# Flattening of curves

`subdivide_bezier` halves a curve until its pieces are flat.  The control points are in
sixteenths of a pixel, and halving cuts off towards zero.

In every piece the distances between neighbouring control points are half as long as
before, rounded up.  So after a few halvings the neighbours of a piece are at most one
unit apart, and then halving changes nothing for the better: the first half of such a piece
is not flat if the piece is not.
-/

structure Point where
  x : Int
  y : Int
deriving DecidableEq

/-- The coordinates of four control points in one direction. -/
structure Four where
  p0 : Int
  p1 : Int
  p2 : Int
  p3 : Int
deriving DecidableEq

namespace Four

/-- `/ 2` of C. -/
def half (value : Int) : Int := value.tdiv 2

variable (four : Four)

def p01 : Int := half (four.p0 + four.p1)

def p12 : Int := half (four.p1 + four.p2)

def p23 : Int := half (four.p2 + four.p3)

def p012 : Int := half (four.p01 + four.p12)

def p123 : Int := half (four.p12 + four.p23)

def p0123 : Int := half (four.p012 + four.p123)

def first : Four := ⟨four.p0, four.p01, four.p012, four.p0123⟩

def second : Four := ⟨four.p0123, four.p123, four.p23, four.p3⟩

/-- The differences that are computed for a piece, and the sums if it is halved. -/
def differences : List Int :=
  [four.p1 - four.p0, four.p3 - four.p0, four.p2 - four.p3, four.p0 - four.p3]

def sums : List Int :=
  [four.p0 + four.p1, four.p1 + four.p2, four.p2 + four.p3, four.p01 + four.p12, four.p12 + four.p23,
    four.p012 + four.p123]

end Four

structure Piece where
  x : Four
  y : Four
deriving DecidableEq

namespace Piece

variable (piece : Piece)

def first : Piece := ⟨piece.x.first, piece.y.first⟩

def second : Piece := ⟨piece.x.second, piece.y.second⟩

end Piece

/-- The sum of `dot` and `dot2` before it is shifted. -/
def products (x1 y1 x2 y2 : Int) : Int := x1 * x2 + y1 * y2

namespace Piece

variable (piece : Piece)

def sumA2 : Int :=
  products (piece.x.p1 - piece.x.p0) (piece.y.p1 - piece.y.p0) (piece.x.p1 - piece.x.p0) (piece.y.p1 - piece.y.p0)

def sumB2 : Int :=
  products (piece.x.p3 - piece.x.p0) (piece.y.p3 - piece.y.p0) (piece.x.p3 - piece.x.p0) (piece.y.p3 - piece.y.p0)

def sumC2 : Int :=
  products (piece.x.p2 - piece.x.p3) (piece.y.p2 - piece.y.p3) (piece.x.p2 - piece.x.p3) (piece.y.p2 - piece.y.p3)

def sumAB : Int :=
  products (piece.x.p1 - piece.x.p0) (piece.y.p1 - piece.y.p0) (piece.x.p3 - piece.x.p0) (piece.y.p3 - piece.y.p0)

def sumCB : Int :=
  products (piece.x.p2 - piece.x.p3) (piece.y.p2 - piece.y.p3) (piece.x.p0 - piece.x.p3) (piece.y.p0 - piece.y.p3)

/-- `h1`, and `h2`. -/
def deviation (square chord along : Int) : Int := (square / 16 * (chord / 16) - along / 16 * (along / 16)) / 8

/-- `h1 < B2 && h2 < B2`. -/
def Flat : Prop :=
  deviation piece.sumA2 piece.sumB2 piece.sumAB < piece.sumB2 / 16 ∧
    deviation piece.sumC2 piece.sumB2 piece.sumCB < piece.sumB2 / 16

instance : Decidable piece.Flat := inferInstanceAs (Decidable (_ ∧ _))

/-- The numbers that are computed as `int64_t`. -/
def longs : List Int :=
  [piece.sumA2, piece.sumB2, piece.sumC2, piece.sumAB, piece.sumCB,
    piece.sumA2 / 16 * (piece.sumB2 / 16), piece.sumAB / 16 * (piece.sumAB / 16),
    piece.sumA2 / 16 * (piece.sumB2 / 16) - piece.sumAB / 16 * (piece.sumAB / 16),
    piece.sumC2 / 16 * (piece.sumB2 / 16), piece.sumCB / 16 * (piece.sumCB / 16),
    piece.sumC2 / 16 * (piece.sumB2 / 16) - piece.sumCB / 16 * (piece.sumCB / 16)]

/-- All numbers that are computed for the piece fit their types. -/
structure Fits : Prop where
  differences : forall value, value ∈ piece.x.differences ++ piece.y.differences -> IsInt32 value
  longs : forall value, value ∈ piece.longs -> -2 ^ 63 ≤ value ∧ value < 2 ^ 63
  sums : ¬ piece.Flat -> forall value, value ∈ piece.x.sums ++ piece.y.sums -> IsInt32 value

instance : Decidable piece.Fits :=
  decidable_of_iff
    ((forall value, value ∈ piece.x.differences ++ piece.y.differences -> IsInt32 value) ∧
      (forall value, value ∈ piece.longs -> -2 ^ 63 ≤ value ∧ value < 2 ^ 63) ∧
      (¬ piece.Flat -> forall value, value ∈ piece.x.sums ++ piece.y.sums -> IsInt32 value))
    ⟨fun all => ⟨all.1, all.2.1, all.2.2⟩, fun fits => ⟨fits.differences, fits.longs, fits.sums⟩⟩

end Piece

def fixToInt (fixed : Int) : Int := if 8 < fixed % 16 then fixed / 16 + 1 else fixed / 16

def endPoint (piece : Piece) : Point := ⟨fixToInt piece.x.p3, fixToInt piece.y.p3⟩

/-- `subdivide_bezier`: the points that it appends; `none` when a number does not fit its type, or when it was given too
little depth. -/
def subdivideBezier : Nat -> Piece -> Option (List Point)
  | 0, _ => none
  | depth + 1, piece =>
      if ¬ piece.Fits then none
      else if piece.Flat then some [endPoint piece]
      else do
        let before <- subdivideBezier depth piece.first
        let after <- subdivideBezier depth piece.second
        some (before ++ after)

/-- The curve is drawn: all numbers fit, and the last point that is appended is its end point. -/
def Drawn (piece : Piece) : Prop :=
  Exists fun depth => Exists fun points => subdivideBezier depth piece = some points ∧
    points.getLast? = some (endPoint piece)

/-- The pieces that halving leads to. -/
inductive Reached (piece : Piece) : Piece -> Prop
  | start : Reached piece piece
  | first {other : Piece} (reached : Reached piece other) (curved : ¬ other.Flat) : Reached piece other.first
  | second {other : Piece} (reached : Reached piece other) (curved : ¬ other.Flat) : Reached piece other.second

/-- Neighbouring control points are not far apart. -/
def Four.Within (steps : Nat) (four : Four) : Prop :=
  (four.p1 - four.p0).natAbs ≤ steps ∧ (four.p2 - four.p1).natAbs ≤ steps ∧ (four.p3 - four.p2).natAbs ≤ steps

/-- The coordinates are at most this far from 0. -/
def Four.Bounded (bound : Nat) (four : Four) : Prop :=
  four.p0.natAbs ≤ bound ∧ four.p1.natAbs ≤ bound ∧ four.p2.natAbs ≤ bound ∧ four.p3.natAbs ≤ bound

/-- Neighbouring control points are at most one unit apart in each direction. -/
def Piece.Close (piece : Piece) : Prop := piece.x.Within 1 ∧ piece.y.Within 1

/-! ## Halving -/

namespace Four

theorem half_spec (value : Int) : (0 ≤ value ∧ 2 * half value ≤ value ∧ value ≤ 2 * half value + 1) ∨
      (value < 0 ∧ value ≤ 2 * half value ∧ 2 * half value ≤ value + 1) := by
  unfold half
  rcases Int.lt_or_le value 0 with negative | nonneg
  · refine Or.inr ⟨negative, ?_⟩
    have opposite : value.tdiv 2 = -((-value).tdiv 2) := by rw [Int.neg_tdiv, neg_neg]
    rw [opposite, Int.tdiv_eq_ediv_of_nonneg (by omega)]
    omega
  · rw [Int.tdiv_eq_ediv_of_nonneg nonneg]
    omega

/-- Halving halves distances, rounded up. -/
theorem half_near {left right : Int} {steps : Nat} (near : (left - right).natAbs ≤ 2 * steps) :
    (half left - half right).natAbs ≤ steps := by
  have one := half_spec left
  have two := half_spec right
  omega

theorem half_double (value : Int) : half (value + value) = value := by
  have spec := half_spec (value + value)
  omega

variable {four : Four} {steps : Nat}

/-- The points stand the other way round. -/
def flip (four : Four) : Four := ⟨four.p3, four.p2, four.p1, four.p0⟩

theorem second_eq_flip : four.second = four.flip.first.flip := by
  unfold second first flip p0123 p123 p012 p23 p12 p01
  simp only [add_comm]

theorem within_flip (within : four.Within steps) : four.flip.Within steps := by
  unfold Within flip at *
  dsimp only
  omega

theorem within_first (within : four.Within (2 * steps)) : four.first.Within steps := by
  rcases within with ⟨near1, near2, near3⟩
  have half01 : (four.p12 - four.p01).natAbs ≤ 2 * steps := half_near (by omega)
  have half12 : (four.p23 - four.p12).natAbs ≤ 2 * steps := half_near (by omega)
  have quarter : (four.p123 - four.p012).natAbs ≤ 2 * steps := half_near (by omega)
  have step1 : (four.p01 - half (four.p0 + four.p0)).natAbs ≤ steps := half_near (by omega)
  have step2 : (four.p012 - half (four.p01 + four.p01)).natAbs ≤ steps := half_near (by omega)
  have step3 : (four.p0123 - half (four.p012 + four.p012)).natAbs ≤ steps := half_near (by omega)
  rw [half_double] at step1 step2 step3
  exact ⟨step1, step2, step3⟩

theorem within_second (within : four.Within (2 * steps)) : four.second.Within steps := by
  rw [second_eq_flip]
  exact within_flip (within_first (within_flip within))

theorem half_le {value base : Int} (high : value ≤ 2 * base ∨ (0 ≤ base ∧ value ≤ 2 * base + 1)) :
    half value ≤ base := by
  have spec := half_spec value
  omega

theorem le_half {value base : Int} (low : 2 * base ≤ value ∨ (base ≤ 0 ∧ 2 * base - 1 ≤ value)) :
    base ≤ half value := by
  have spec := half_spec value
  omega

/-- With close neighbours the first half goes on in the direction of its first step, if it makes one. -/
theorem first_forward (close : four.Within 1) :
    four.p01 = four.p0 ∨ (four.p01 = four.p0 + 1 ∧ four.p0 ≤ four.p0123) ∨
      (four.p01 = four.p0 - 1 ∧ four.p0123 ≤ four.p0) := by
  rcases close with ⟨near1, near2, near3⟩
  have which : four.p01 = four.p0 ∨ (four.p01 = four.p0 + 1 ∧ four.p1 = four.p0 + 1 ∧ four.p0 < 0) ∨
      (four.p01 = four.p0 - 1 ∧ four.p1 = four.p0 - 1 ∧ 0 < four.p0) := by
    have spec := half_spec (four.p0 + four.p1)
    unfold p01
    omega
  -- the first step goes towards zero, and so halving rounds in its direction
  rcases which with none | ⟨up, isUp, negative⟩ | ⟨down, isDown, positive⟩
  · exact Or.inl none
  · have low12 : four.p0 + 1 ≤ four.p12 := le_half (by omega)
    have low23 : four.p0 ≤ four.p23 := le_half (by omega)
    have low012 : four.p0 + 1 ≤ four.p012 := le_half (by omega)
    have low123 : four.p0 + 1 ≤ four.p123 := le_half (by omega)
    exact Or.inr (Or.inl ⟨up, le_half (by omega)⟩)
  · have high12 : four.p12 ≤ four.p0 - 1 := half_le (by omega)
    have high23 : four.p23 ≤ four.p0 := half_le (by omega)
    have high012 : four.p012 ≤ four.p0 - 1 := half_le (by omega)
    have high123 : four.p123 ≤ four.p0 - 1 := half_le (by omega)
    exact Or.inr (Or.inr ⟨down, half_le (by omega)⟩)

/-- A first half that is as long as it can be is no half at all: the points all go the same way. -/
theorem straight_of_first (close : four.Within 1) (far : 3 ≤ (four.p0123 - four.p0).natAbs) :
    Exists fun step : Int => (step = 1 ∨ step = -1) ∧
      four.p1 - four.p0 = step ∧ four.p3 - four.p0 = 3 * step ∧ four.p2 - four.p3 = -step := by
  rcases close with ⟨near1, near2, near3⟩
  have high01 : four.p01 ≤ four.p0 + 1 := half_le (by omega)
  have low01 : four.p0 - 1 ≤ four.p01 := le_half (by omega)
  have high12 : four.p12 ≤ four.p0 + 2 := half_le (by omega)
  have low12 : four.p0 - 2 ≤ four.p12 := le_half (by omega)
  have high012 : four.p012 ≤ four.p0 + 2 := half_le (by omega)
  have low012 : four.p0 - 2 ≤ four.p012 := le_half (by omega)
  by_cases up : four.p0 ≤ four.p0123
  · have most123 : four.p0 + 3 ≤ four.p123 := by
      by_contra less
      have short : four.p0123 ≤ four.p0 + 2 := half_le (by omega)
      omega
    have most23 : four.p0 + 3 ≤ four.p23 := by
      by_contra less
      have short : four.p123 ≤ four.p0 + 2 := half_le (by omega)
      omega
    have most : 2 * four.p0 + 5 ≤ four.p2 + four.p3 := by
      by_contra less
      have short : four.p23 ≤ four.p0 + 2 := half_le (by omega)
      omega
    exact ⟨1, Or.inl rfl, by omega⟩
  · have least123 : four.p123 ≤ four.p0 - 3 := by
      by_contra more
      have short : four.p0 - 2 ≤ four.p0123 := le_half (by omega)
      omega
    have least23 : four.p23 ≤ four.p0 - 3 := by
      by_contra more
      have short : four.p0 - 2 ≤ four.p123 := le_half (by omega)
      omega
    have least : four.p2 + four.p3 ≤ 2 * four.p0 - 5 := by
      by_contra more
      have short : four.p0 - 2 ≤ four.p23 := le_half (by omega)
      omega
    exact ⟨-1, Or.inr rfl, by omega⟩

end Four

/-! ## Pieces that stay curved -/

theorem Four.Within.mono {four : Four} {less more : Nat} (within : four.Within less) (le : less ≤ more) :
    four.Within more := by
  unfold Four.Within at *
  omega

theorem forward_product {step way : Int} (forward : step = 0 ∨ (step = 1 ∧ 0 ≤ way) ∨ (step = -1 ∧ way ≤ 0))
    (near : way.natAbs ≤ 3) :
    (0 ≤ step * way ∧ step * way ≤ 3) ∧ 0 ≤ step * step ∧ step * step ≤ 1 := by
  rcases forward with rfl | ⟨rfl, _⟩ | ⟨rfl, _⟩
  · omega
  · omega
  · omega

theorem square_le {way : Int} (near : way.natAbs ≤ 3) : way * way ≤ 9 ∧ (way.natAbs < 3 -> way * way ≤ 4) := by
  have cases : way = -3 ∨ way = -2 ∨ way = -1 ∨ way = 0 ∨ way = 1 ∨ way = 2 ∨ way = 3 := by omega
  rcases cases with rfl | rfl | rfl | rfl | rfl | rfl | rfl <;> decide

/-- The sums of the first half of a piece with close neighbours are small. -/
theorem forward_first {four : Four} (close : four.Within 1) : ((four.first.p3 - four.first.p0).natAbs ≤ 3) ∧
      (four.first.p1 - four.first.p0 = 0 ∨ (four.first.p1 - four.first.p0 = 1 ∧ 0 ≤ four.first.p3 - four.first.p0) ∨
        (four.first.p1 - four.first.p0 = -1 ∧ four.first.p3 - four.first.p0 ≤ 0)) := by
  have near := Four.within_first (close.mono (show 1 ≤ 2 * 1 by decide))
  have forward := Four.first_forward close
  unfold Four.Within at near
  unfold Four.first at *
  dsimp only at *
  omega

theorem flat_of_straight {piece : Piece} {stepX stepY : Int} (unitX : stepX = 1 ∨ stepX = -1)
    (unitY : stepY = 1 ∨ stepY = -1)
    (x : piece.x.p1 - piece.x.p0 = stepX ∧ piece.x.p3 - piece.x.p0 = 3 * stepX ∧ piece.x.p2 - piece.x.p3 = -stepX)
    (y : piece.y.p1 - piece.y.p0 = stepY ∧ piece.y.p3 - piece.y.p0 = 3 * stepY ∧ piece.y.p2 - piece.y.p3 = -stepY) :
    piece.Flat := by
  have backX : piece.x.p0 - piece.x.p3 = -(3 * stepX) := by omega
  have backY : piece.y.p0 - piece.y.p3 = -(3 * stepY) := by omega
  unfold Piece.Flat Piece.sumA2 Piece.sumB2 Piece.sumC2 Piece.sumAB Piece.sumCB
  rw [x.1, x.2.1, x.2.2, backX, y.1, y.2.1, y.2.2, backY]
  rcases unitX with rfl | rfl <;> rcases unitY with rfl | rfl <;> decide

/-- With close neighbours, the first half of a curved piece is curved. -/
theorem curved_first {piece : Piece} (close : piece.Close) (curved : ¬ piece.Flat) : ¬ piece.first.Flat := by
  intro flat
  rcases forward_first close.1 with ⟨nearX, forwardX⟩
  rcases forward_first close.2 with ⟨nearY, forwardY⟩
  rcases forward_product forwardX nearX with ⟨alongX, squareX⟩
  rcases forward_product forwardY nearY with ⟨alongY, squareY⟩
  have chordX := square_le nearX
  have chordY := square_le nearY
  have chord : 16 ≤ piece.first.sumB2 := by
    have along : piece.first.sumAB / 16 = 0 := by
      unfold Piece.sumAB products Piece.first
      dsimp only
      omega
    have square : piece.first.sumA2 / 16 = 0 := by
      unfold Piece.sumA2 products Piece.first
      dsimp only
      omega
    have small := flat.1
    unfold Piece.deviation at small
    rw [along, square] at small
    omega
  unfold Piece.sumB2 products Piece.first at chord
  have farX : 3 ≤ (piece.x.p0123 - piece.x.p0).natAbs := by
    unfold Four.first at *
    dsimp only at *
    omega
  have farY : 3 ≤ (piece.y.p0123 - piece.y.p0).natAbs := by
    unfold Four.first at *
    dsimp only at *
    omega
  rcases Four.straight_of_first close.1 farX with ⟨stepX, unitX, x⟩
  rcases Four.straight_of_first close.2 farY with ⟨stepY, unitY, y⟩
  exact curved (flat_of_straight unitX unitY x y)

theorem close_first {piece : Piece} (close : piece.Close) : piece.first.Close :=
  ⟨Four.within_first (close.1.mono (by decide)), Four.within_first (close.2.mono (by decide))⟩

/-- A curved piece with close neighbours is halved forever. -/
theorem subdivideBezier_of_close : forall (depth : Nat) {piece : Piece}, piece.Close -> ¬ piece.Flat ->
    subdivideBezier depth piece = none := by
  intro depth
  induction depth with
  | zero => exact fun _ _ => rfl
  | succ depth ih =>
      intro piece close curved
      unfold subdivideBezier
      rw [if_neg curved, ih (close_first close) (curved_first close curved)]
      split
      · rfl
      · rfl

/-! ## Whole curves -/

theorem Reached.of_first {piece other : Piece} (curved : ¬ piece.Flat) (reached : Reached piece.first other) :
    Reached piece other := by
  induction reached with
  | start => exact .first .start curved
  | first _ halved ih => exact .first ih halved
  | second _ halved ih => exact .second ih halved

theorem Reached.of_second {piece other : Piece} (curved : ¬ piece.Flat) (reached : Reached piece.second other) :
    Reached piece other := by
  induction reached with
  | start => exact .second .start curved
  | first _ halved ih => exact .first ih halved
  | second _ halved ih => exact .second ih halved

/-- The depth of the recursion is bounded by the distances of the control points. -/
theorem subdivideBezier_of_within : forall (depth : Nat) {piece : Piece},
    piece.x.Within (2 ^ depth) -> piece.y.Within (2 ^ depth) ->
    (forall other, Reached piece other -> other.Fits ∧ (other.Close -> other.Flat)) ->
      Exists fun points => subdivideBezier (depth + 1) piece = some points ∧
        points.getLast? = some (endPoint piece) := by
  intro depth
  induction depth with
  | zero =>
      intro piece withinX withinY all
      rcases all piece .start with ⟨fits, flat⟩
      refine ⟨[endPoint piece], ?_, rfl⟩
      unfold subdivideBezier
      rw [if_neg (not_not.mpr fits), if_pos (flat ⟨withinX, withinY⟩)]
  | succ depth ih =>
      intro piece withinX withinY all
      rcases all piece .start with ⟨fits, _⟩
      rw [Nat.pow_succ, Nat.mul_comm] at withinX withinY
      unfold subdivideBezier
      rw [if_neg (not_not.mpr fits)]
      by_cases flat : piece.Flat
      · exact ⟨[endPoint piece], if_pos flat, rfl⟩
      · rcases ih (Four.within_first withinX) (Four.within_first withinY)
          (fun other reached => all other (reached.of_first flat))
          with ⟨before, isBefore, _⟩
        rcases ih (Four.within_second withinX) (Four.within_second withinY)
          (fun other reached => all other (reached.of_second flat))
          with ⟨after, isAfter, isLast⟩
        refine ⟨before ++ after, ?_, ?_⟩
        · rw [if_neg flat, isBefore, isAfter]
          rfl
        · rw [List.getLast?_append, isLast]
          rfl

theorem exists_within (four : Four) : Exists fun depth => forall more, depth ≤ more -> four.Within (2 ^ more) := by
  refine ⟨(four.p1 - four.p0).natAbs + (four.p2 - four.p1).natAbs + (four.p3 - four.p2).natAbs, fun more le => ?_⟩
  have bound := (Nat.lt_two_pow_self (n := more)).le
  unfold Four.Within
  omega

theorem Reached.cases_start {piece other : Piece} (reached : Reached piece other) :
    other = piece ∨ (¬ piece.Flat ∧ (Reached piece.first other ∨ Reached piece.second other)) := by
  induction reached with
  | start => exact Or.inl rfl
  | first _ curved ih =>
      rcases ih with rfl | ⟨halved, inFirst | inSecond⟩
      · exact Or.inr ⟨curved, Or.inl .start⟩
      · exact Or.inr ⟨halved, Or.inl (.first inFirst curved)⟩
      · exact Or.inr ⟨halved, Or.inr (.first inSecond curved)⟩
  | second _ curved ih =>
      rcases ih with rfl | ⟨halved, inFirst | inSecond⟩
      · exact Or.inr ⟨curved, Or.inr .start⟩
      · exact Or.inr ⟨halved, Or.inl (.second inFirst curved)⟩
      · exact Or.inr ⟨halved, Or.inr (.second inSecond curved)⟩

/-- A curve that is drawn reaches no other pieces than those. -/
theorem reached_of_some : forall (depth : Nat) {piece : Piece}
    {points : List Point}, subdivideBezier depth piece = some points ->
    forall other, Reached piece other -> other.Fits ∧ (other.Close -> other.Flat) := by
  intro depth
  induction depth with
  | zero =>
      intro piece points isSome
      cases isSome
  | succ depth ih =>
      intro piece points isSome other reached
      have flat : piece.Close -> piece.Flat := by
        intro close
        by_contra curved
        rw [subdivideBezier_of_close (depth + 1) close curved] at isSome
        cases isSome
      unfold subdivideBezier at isSome
      split at isSome
      · cases isSome
      · next fits =>
        rcases reached.cases_start with rfl | ⟨curved, halves⟩
        · exact ⟨not_not.mp fits, flat⟩
        · rw [if_neg curved] at isSome
          rcases Option.bind_eq_some_iff.mp isSome with ⟨before, isBefore, isSome⟩
          rcases Option.bind_eq_some_iff.mp isSome with ⟨after, isAfter, _⟩
          rcases halves with inFirst | inSecond
          · exact ih isBefore other inFirst
          · exact ih isAfter other inSecond

theorem drawn_of_reached (piece : Piece)
    (all : forall other, Reached piece other -> other.Fits ∧ (other.Close -> other.Flat)) :
    Drawn piece := by
  rcases exists_within piece.x with ⟨depthX, withinX⟩
  rcases exists_within piece.y with ⟨depthY, withinY⟩
  rcases subdivideBezier_of_within (max depthX depthY) (withinX _ (Nat.le_max_left _ _))
    (withinY _ (Nat.le_max_right _ _)) all
    with ⟨points, isSome, isLast⟩
  exact ⟨_, points, isSome, isLast⟩

/-- `subdivide_bezier` draws a curve if and only if it reaches only pieces whose numbers fit and that, with neighbouring
control points at most one unit apart, are flat. -/
theorem subdivide_bezier_iff (piece : Piece) :
    Drawn piece <-> forall other, Reached piece other -> other.Fits ∧ (other.Close -> other.Flat) := by
  constructor
  · rintro ⟨depth, points, isSome, _⟩
    exact reached_of_some depth isSome
  · exact drawn_of_reached piece

/-- Four control points at one place. -/
theorem coinciding_points_not_drawn : ¬ Drawn ⟨⟨0, 0, 0, 0⟩, ⟨0, 0, 0, 0⟩⟩ := by
  rintro ⟨depth, points, isSome, _⟩
  have close : Piece.Close ⟨⟨0, 0, 0, 0⟩, ⟨0, 0, 0, 0⟩⟩ := by
    unfold Piece.Close Four.Within
    decide
  rw [subdivideBezier_of_close depth close (by decide)] at isSome
  cases isSome

/-! ## Curves of bounded size -/

namespace Four

variable {four : Four} {bound : Nat}

theorem half_bounded {left right : Int} (one : left.natAbs ≤ bound) (other : right.natAbs ≤ bound) :
    (half (left + right)).natAbs ≤ bound := by
  have spec := half_spec (left + right)
  omega

theorem bounded_first (bounded : four.Bounded bound) : four.first.Bounded bound := by
  rcases bounded with ⟨bound0, bound1, bound2, bound3⟩
  have bound01 : four.p01.natAbs ≤ bound := half_bounded bound0 bound1
  have bound12 : four.p12.natAbs ≤ bound := half_bounded bound1 bound2
  have bound012 : four.p012.natAbs ≤ bound := half_bounded bound01 bound12
  have bound123 : four.p123.natAbs ≤ bound := half_bounded bound12 (half_bounded bound2 bound3)
  exact ⟨bound0, bound01, bound012, half_bounded bound012 bound123⟩

theorem bounded_flip (bounded : four.Bounded bound) : four.flip.Bounded bound :=
  ⟨bounded.2.2.2, bounded.2.2.1, bounded.2.1, bounded.1⟩

theorem bounded_second (bounded : four.Bounded bound) : four.second.Bounded bound := by
  rw [second_eq_flip]
  exact bounded_flip (bounded_first (bounded_flip bounded))

theorem isInt32_sub {left right : Int} (one : left.natAbs ≤ 2 ^ 16) (other : right.natAbs ≤ 2 ^ 16) :
    IsInt32 (left - right) := by
  unfold IsInt32
  omega

theorem isInt32_add {left right : Int} (one : left.natAbs ≤ 2 ^ 16) (other : right.natAbs ≤ 2 ^ 16) :
    IsInt32 (left + right) := by
  unfold IsInt32
  omega

theorem isInt32_differences (bounded : four.Bounded (2 ^ 16)) :
    forall value, value ∈ four.differences -> IsInt32 value := by
  rcases bounded with ⟨bound0, bound1, bound2, bound3⟩
  intro value member
  simp only [differences, List.mem_cons, List.not_mem_nil, or_false] at member
  rcases member with rfl | rfl | rfl | rfl
  exacts [isInt32_sub bound1 bound0, isInt32_sub bound3 bound0, isInt32_sub bound2 bound3, isInt32_sub bound0 bound3]

theorem isInt32_sums (bounded : four.Bounded (2 ^ 16)) : forall value, value ∈ four.sums -> IsInt32 value := by
  rcases bounded with ⟨bound0, bound1, bound2, bound3⟩
  have bound01 : four.p01.natAbs ≤ 2 ^ 16 := half_bounded bound0 bound1
  have bound12 : four.p12.natAbs ≤ 2 ^ 16 := half_bounded bound1 bound2
  have bound23 : four.p23.natAbs ≤ 2 ^ 16 := half_bounded bound2 bound3
  have bound012 : four.p012.natAbs ≤ 2 ^ 16 := half_bounded bound01 bound12
  have bound123 : four.p123.natAbs ≤ 2 ^ 16 := half_bounded bound12 bound23
  intro value member
  simp only [sums, List.mem_cons, List.not_mem_nil, or_false] at member
  rcases member with rfl | rfl | rfl | rfl | rfl | rfl
  exacts [isInt32_add bound0 bound1, isInt32_add bound1 bound2, isInt32_add bound2 bound3, isInt32_add bound01 bound12,
    isInt32_add bound12 bound23, isInt32_add bound012 bound123]

end Four

/-- A sum of two products of differences. -/
theorem natAbs_products_le {x1 y1 x2 y2 : Int} (x1Near : x1.natAbs ≤ 2 ^ 17) (y1Near : y1.natAbs ≤ 2 ^ 17)
    (x2Near : x2.natAbs ≤ 2 ^ 17) (y2Near : y2.natAbs ≤ 2 ^ 17) : (products x1 y1 x2 y2).natAbs ≤ 2 ^ 35 := by
  have sum : (products x1 y1 x2 y2).natAbs ≤ (x1 * x2).natAbs + (y1 * y2).natAbs := Int.natAbs_add_le _ _
  rw [Int.natAbs_mul, Int.natAbs_mul] at sum
  have across := Nat.mul_le_mul x1Near x2Near
  have down := Nat.mul_le_mul y1Near y2Near
  omega

theorem natAbs_mul_le {left right : Int} (one : left.natAbs ≤ 2 ^ 35) (other : right.natAbs ≤ 2 ^ 35) :
    (left / 16 * (right / 16)).natAbs ≤ 2 ^ 62 := by
  rw [Int.natAbs_mul]
  have both := Nat.mul_le_mul (show (left / 16).natAbs ≤ 2 ^ 31 by omega) (show (right / 16).natAbs ≤ 2 ^ 31 by omega)
  omega

theorem natAbs_sub_le {left right : Int} (one : left.natAbs ≤ 2 ^ 16) (other : right.natAbs ≤ 2 ^ 16) :
    (left - right).natAbs ≤ 2 ^ 17 := by
  omega

theorem isLong {value : Int} (small : value.natAbs ≤ 2 ^ 62) : -2 ^ 63 ≤ value ∧ value < 2 ^ 63 := by
  omega

theorem isLong_sub {value square : Int} (small : value.natAbs ≤ 2 ^ 62) (nonneg : 0 ≤ square)
    (less : square.natAbs ≤ 2 ^ 62) :
    -2 ^ 63 ≤ value - square ∧ value - square < 2 ^ 63 := by
  omega

namespace Piece

variable {piece : Piece}

theorem natAbs_sums_le (x : piece.x.Bounded (2 ^ 16)) (y : piece.y.Bounded (2 ^ 16)) : piece.sumA2.natAbs ≤ 2 ^ 35 ∧
    piece.sumB2.natAbs ≤ 2 ^ 35 ∧ piece.sumC2.natAbs ≤ 2 ^ 35 ∧ piece.sumAB.natAbs ≤ 2 ^ 35 ∧
      piece.sumCB.natAbs ≤ 2 ^ 35 := by
  rcases x with ⟨x0, x1, x2, x3⟩
  rcases y with ⟨y0, y1, y2, y3⟩
  have startX := natAbs_sub_le x1 x0
  have startY := natAbs_sub_le y1 y0
  have chordX := natAbs_sub_le x3 x0
  have chordY := natAbs_sub_le y3 y0
  have endX := natAbs_sub_le x2 x3
  have endY := natAbs_sub_le y2 y3
  exact ⟨natAbs_products_le startX startY startX startY, natAbs_products_le chordX chordY chordX chordY,
    natAbs_products_le endX endY endX endY, natAbs_products_le startX startY chordX chordY,
    natAbs_products_le endX endY (natAbs_sub_le x0 x3) (natAbs_sub_le y0 y3)⟩

/-- No number of a piece near the origin leaves its type. -/
theorem fits_of_bounded (x : piece.x.Bounded (2 ^ 16)) (y : piece.y.Bounded (2 ^ 16)) : piece.Fits where
  differences := by
    intro value member
    rcases List.mem_append.mp member with inX | inY
    · exact Four.isInt32_differences x value inX
    · exact Four.isInt32_differences y value inY
  longs := by
    rcases natAbs_sums_le x y with ⟨a2, b2, c2, ab, cb⟩
    have small : forall {value : Int}, value.natAbs ≤ 2 ^ 35 -> -2 ^ 63 ≤ value ∧ value < 2 ^ 63 :=
      fun near => isLong (near.trans (by decide))
    have first := natAbs_mul_le a2 b2
    have second := natAbs_mul_le c2 b2
    have firstAlong := natAbs_mul_le ab ab
    have secondAlong := natAbs_mul_le cb cb
    intro value member
    simp only [Piece.longs, List.mem_cons, List.not_mem_nil, or_false] at member
    rcases member with rfl | rfl | rfl | rfl | rfl | rfl | rfl | rfl | rfl | rfl | rfl
    exacts [small a2, small b2, small c2, small ab, small cb, isLong first, isLong firstAlong,
      isLong_sub first (mul_self_nonneg _) firstAlong, isLong second, isLong secondAlong,
      isLong_sub second (mul_self_nonneg _) secondAlong]
  sums := by
    intro _ value member
    rcases List.mem_append.mp member with inX | inY
    · exact Four.isInt32_sums x value inX
    · exact Four.isInt32_sums y value inY

end Piece

theorem Reached.bounded {piece other : Piece} {bound : Nat} (x : piece.x.Bounded bound) (y : piece.y.Bounded bound)
    (reached : Reached piece other) : other.x.Bounded bound ∧ other.y.Bounded bound := by
  induction reached with
  | start => exact ⟨x, y⟩
  | first _ _ ih => exact ⟨Four.bounded_first ih.1, Four.bounded_first ih.2⟩
  | second _ _ ih => exact ⟨Four.bounded_second ih.1, Four.bounded_second ih.2⟩

/-- For curves within 4096 pixels of the origin only the stop test matters. -/
theorem drawn_iff_of_bounded (piece : Piece) (x : piece.x.Bounded (2 ^ 16)) (y : piece.y.Bounded (2 ^ 16)) :
    Drawn piece <-> forall other, Reached piece other -> other.Close -> other.Flat := by
  constructor
  · rintro ⟨depth, points, isSome, _⟩ other reached
    exact (reached_of_some depth isSome other reached).2
  · intro flat
    refine drawn_of_reached piece (fun other reached => ⟨?_, flat other reached⟩)
    rcases reached.bounded x y with ⟨otherX, otherY⟩
    exact Piece.fits_of_bounded otherX otherY

end Bezier
end Canvas
end Spice
