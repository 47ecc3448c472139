import Spice.Canvas.Bezier
import Mathlib.Data.Rat.Floor

namespace Spice
namespace Canvas
namespace Stroke

open Bezier

/-!
# Strokes

`canvas_draw_stroke` takes the segments of a path one after the other.  Their flags open,
end and close a polyline, which is kept as a list of points and drawn when it ends.  Curves
start at the last point of the polyline, and closing it goes back to the first one, whether
or not there is one.  With a line style, drawing steps through a list of dashes, which
starts again when it ends.

Of the drawing itself there is what it uses of the points and the dashes.  The length of a
line is a parameter, and so are the points that flattening appends before the end point of
a curve (what they are is the matter of `Bezier`).
-/

inductive Fault
  | points
  | dash
  | division
  | endless
deriving DecidableEq

/-! ## Dashes -/

section Dashes

variable (dash : List Nat)

/-- `pDash[dashIndex]`. -/
def readDash (index : Nat) : Except Fault Nat :=
  match dash[index]? with
  | some length => .ok length
  | none => .error .dash

def nextDash (index : Nat) : Nat := if index + 1 = dash.length then 0 else index + 1

section Around

variable {A : Type} [Sub A] [NatCast A] (stop : A -> Nat -> Bool)

/-- A loop that takes off one dash after the other. -/
def around : Nat -> A -> Nat -> Except Fault (A × Nat)
  | 0, _, _ => .error .endless
  | rounds + 1, rest, index => do
      let length <- readDash dash index
      if stop rest length then .ok (rest, index) else around rounds (rest - length) (nextDash dash index)

end Around

/-- Rounds that are enough for a number of pixels. -/
def enough (pixels : Nat) : Nat := (pixels + 1) * dash.length + 1

/-- `miStepDash`: the index and the offset. -/
def miStepDash (dist : Int) (dashIndex : Nat) (dashOffset : Int) : Except Fault (Nat × Int) := do
  let length <- readDash dash dashIndex
  if dist < length - dashOffset then .ok (dashIndex, dashOffset + dist)
  else
    let dist := dist - (length - dashOffset)
    if dash.sum ≤ dist ∧ dash.sum = 0 then .error .division
    else
      let dist := if dash.sum ≤ dist then dist.tmod dash.sum else dist
      let (rest, index) <- around dash (fun (rest : Int) length => rest < length) (enough dash dist.toNat) dist
        (nextDash dash dashIndex)
      .ok (index, rest)

/-- The conversion of a `double` to an `int`. -/
def toInt (value : Rat) : Int := value.num.tdiv value.den

/-- The steps of `miWideDashSegment` along a line. -/
def wideDashSegment (length : Rat) (dashIndex : Nat) (dashOffset : Int) : Except Fault (Nat × Int) := do
  let first <- readDash dash dashIndex
  let remain : Int := first - dashOffset
  let (lRemain, index, dashRemain) <-
    if remain < length then do
      let (rest, index) <- around dash (fun (rest : Rat) length => rest ≤ length) (enough dash ⌈length⌉.toNat)
        (length - remain)
        (nextDash dash dashIndex)
      let dashRemain <- readDash dash index
      .ok (rest, index, (dashRemain : Int))
    else .ok (length, dashIndex, remain)
  let left := toInt (dashRemain - lRemain)
  let index := if left = 0 then nextDash dash index else index
  let last <- readDash dash index
  .ok (index, if left = 0 then 0 else last - left)

variable (length : Point -> Point -> Rat)

def dashPoints : Point -> List Point -> Nat -> Int -> Except Fault Unit
  | _, [], _, _ => .ok ()
  | last, point :: rest, dashIndex, dashOffset =>
      if last = point then dashPoints point rest dashIndex dashOffset
      else do
        let (index, offset) <- wideDashSegment dash (length last point) dashIndex dashOffset
        dashPoints point rest index offset

def miWideDash (dashOffset : Nat) : List Point -> Except Fault Unit
  | [] => .ok ()
  | first :: rest => do
      let (index, offset) <- miStepDash dash dashOffset 0 0
      dashPoints dash length first rest index offset

end Dashes

/-- An entry of the style as an `unsigned char`. -/
def toDash (entry : Int) : Nat := (fixToInt entry % 256).toNat

/-- The dashes of a style and `dashOffset`; with a gap at the start, the first entry comes last. -/
def dashSetup (style : List Int) (startWithGap : Bool) : Except Fault (List Nat × Nat) :=
  if startWithGap then
    match style with
    | [] => .error .dash
    | first :: rest => .ok ((rest ++ [first]).map toDash, ((rest ++ [first]).map toDash).headD 0)
  else .ok (style.map toDash, 0)

/-! ## Paths -/

structure PathSeg where
  isBegin : Bool
  isEnd : Bool
  isClose : Bool
  isBezier : Bool
  points : List Point

def fixPoint (point : Point) : Point := ⟨fixToInt point.x, fixToInt point.y⟩

namespace PathSeg

variable (seg : PathSeg)

/-- The points after the first one of a polyline. -/
def rest : List Point := if seg.isBegin then seg.points.tail else seg.points

/-- The number of points fails the check of a segment with curves. -/
def Returns : Prop :=
  seg.isBezier = true ∧ ¬ (3 : Int) ∣ (if seg.isBegin then 1 else 0) - seg.points.length

instance : Decidable seg.Returns := inferInstanceAs (Decidable (_ ∧ ¬ _))

end PathSeg

section Draw

variable (dashes : Option (List Nat × Nat)) (length : Point -> Point -> Rat) (before : Piece -> List Point)
    (beyond : Point)

def strokeLinesDraw (lines : List Point) : Except Fault Unit :=
  match dashes with
  | none => .ok ()
  | some (dash, dashOffset) => miWideDash dash length dashOffset lines

def strokeLinesAppendBezier (lines : List Point) (point1 point2 point3 : Point) : Except Fault (List Point) :=
  match lines.getLast? with
  | none => .error .points
  | some last =>
      let piece : Piece := ⟨⟨last.x * 16, point1.x, point2.x, point3.x⟩, ⟨last.y * 16, point1.y, point2.y, point3.y⟩⟩
      .ok (lines ++ before piece ++ [endPoint piece])

def appendCurves : List Point -> List Point -> Except Fault (List Point)
  | point1 :: point2 :: point3 :: rest, lines => do
      let lines <- strokeLinesAppendBezier before lines point1 point2 point3
      appendCurves rest lines
  | _, lines => .ok lines

/-- The first point of a polyline, after the one before was drawn; a segment without points takes what is behind it. -/
def beginLines (seg : PathSeg) (lines : List Point) : Except Fault (List Point) :=
  if seg.isBegin then do
    strokeLinesDraw dashes length lines
    .ok [fixPoint (seg.points.headD beyond)]
  else .ok lines

/-- Going back to the first point. -/
def closeLines : List Point -> Except Fault (List Point)
  | [] => .error .points
  | first :: rest => .ok (first :: rest ++ [first])

def endLines (seg : PathSeg) (lines : List Point) : Except Fault (List Point) :=
  if seg.isEnd then do
    let lines <- (if seg.isClose then closeLines lines else .ok lines)
    strokeLinesDraw dashes length lines
    .ok []
  else .ok lines

/-- The loop over the segments, and what is drawn after it. -/
def drawPath : List PathSeg -> List Point -> Except Fault Unit
  | [], lines => strokeLinesDraw dashes length lines
  | seg :: segs, lines => do
      let lines <- beginLines dashes length beyond seg lines
      if seg.Returns then .ok ()
      else do
        let lines <- (if seg.isBezier then appendCurves before seg.rest lines else .ok (lines ++ seg.rest.map fixPoint))
        let lines <- endLines dashes length seg lines
        drawPath segs lines

end Draw

/-! ## The command -/

/-- A brush; a pattern is a surface or an image. -/
inductive Brush
  | none
  | solid
  | pattern (isSurface : Bool)
  | other
deriving DecidableEq

/-- What the callbacks know of the brush. -/
structure StrokeGC where
  solid : Bool
  useSurfaceCanvas : Bool

def strokeGC : Brush -> Option StrokeGC
  | .none => some ⟨true, false⟩
  | .solid => some ⟨true, false⟩
  | .pattern isSurface => some ⟨false, isSurface⟩
  | .other => none

/-- What pixels are filled with. -/
inductive Source
  | color
  | tile
  | surface
deriving DecidableEq

def strokeFillSpans (gc : StrokeGC) : Source := if gc.solid then .color else .tile

def strokeFillRects (gc : StrokeGC) : Source :=
  if gc.solid then .color else if gc.useSurfaceCanvas then .surface else .tile

/-- A stroke, of which something may be visible. -/
structure SpiceStroke where
  visible : Bool
  styled : Bool
  startWithGap : Bool
  style : List Int
  brush : Brush
  path : List PathSeg

def strokeDashes (stroke : SpiceStroke) : Except Fault (Option (List Nat × Nat)) :=
  if stroke.styled then (dashSetup stroke.style stroke.startWithGap).map some else .ok none

/-- `canvas_draw_stroke`; it gives what it draws with, if it draws. -/
def canvasDrawStroke (length : Point -> Point -> Rat) (before : Piece -> List Point) (beyond : Point)
    (stroke : SpiceStroke) :
    Except Fault (Option StrokeGC) :=
  if stroke.visible = false then .ok none
  else do
    let dashes <- strokeDashes stroke
    match strokeGC stroke.brush with
    | none => .ok none
    | some gc => do
        drawPath dashes length before beyond stroke.path []
        .ok (some gc)

/-- The stroke is drawn without a fault, and both callbacks take the brush for the same. -/
def Accepted (length : Point -> Point -> Rat) (before : Piece -> List Point) (beyond : Point)
    (stroke : SpiceStroke) : Prop :=
  Exists fun result => canvasDrawStroke length before beyond stroke = .ok result ∧
    forall gc, result = some gc -> strokeFillSpans gc = strokeFillRects gc

/-- The polyline has points where they are needed, and the dashes can be stepped where it has points when it is drawn.
-/
def PathFits (steps : Prop) : Prop -> List PathSeg -> Prop
  | opened, [] => opened -> steps
  | opened, seg :: segs =>
      (seg.isBegin = true -> opened -> steps) ∧
        (¬ seg.Returns ->
          (seg.isBezier = true -> 3 ≤ seg.rest.length -> opened ∨ seg.isBegin = true) ∧
          (seg.isEnd = true -> seg.isClose = true ->
            opened ∨ seg.isBegin = true ∨ (seg.isBezier = false ∧ seg.points ≠ [])) ∧
          (seg.isEnd = true -> opened ∨ seg.isBegin = true ∨ (seg.isBezier = false ∧ seg.points ≠ []) -> steps) ∧
          PathFits steps (seg.isEnd = false ∧
            (opened ∨ seg.isBegin = true ∨ (seg.isBezier = false ∧ seg.points ≠ []))) segs)

/-- A style with a gap at the start has entries, and if the brush is known it is no surface, and the path fits; dashes
can be stepped if not all are zero. -/
structure Fits (stroke : SpiceStroke) : Prop where
  gap : stroke.visible = true -> stroke.styled = true -> stroke.startWithGap = true -> stroke.style ≠ []
  brush : stroke.visible = true -> stroke.brush ≠ .pattern true
  path : stroke.visible = true -> stroke.brush ≠ .other ->
    PathFits (stroke.styled = true -> Exists fun entry => entry ∈ stroke.style ∧ toDash entry ≠ 0) False stroke.path

/-! ## Stepping ends -/

section Stepping

variable {dash : List Nat}

end Stepping

/-! ## Paths are drawn -/

section Path

variable (dashes : Option (List Nat × Nat)) (length : Point -> Point -> Rat) (before : Piece -> List Point)
    (beyond : Point)

/-- A step of the loop goes on exactly under a condition, and then the polyline has points or not. -/
def Outcome (result : Except Fault (List Point)) (condition opened : Prop) : Prop :=
  (condition ∧ Exists fun lines => result = .ok lines ∧ (lines ≠ [] <-> opened)) ∨
    (¬ condition ∧ Exists fun fault => result = .error fault)

namespace Outcome

variable {result : Except Fault (List Point)} {condition opened fits : Prop}

end Outcome

end Path

/-! ## The command is accepted -/

end Stroke
end Canvas
end Spice
