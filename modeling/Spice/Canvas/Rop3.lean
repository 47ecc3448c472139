import Spice.Lib.Int32
import Spice.Region.TestExact

namespace Spice
namespace Canvas
namespace Rop3

open Lib Spice.Region

/-!
# Drawing with three inputs

`ROP3` combines the pixels of the destination with those of a source and of a pattern: a
code of eight bits says what becomes of each combination of three bits.  The destination
is copied to an image of its own, combined there line by line, with a running index into
the pattern, and copied back.

The source is one that is not scaled.  What C leaves undefined, a difference or a byte
offset that is no `int` or a pixel outside of its image, ends the model as a failed
assertion does.
-/

/-! ## The operations -/

inductive Formula
  | pat
  | src
  | dest
  | not (operand : Formula)
  | and (left right : Formula)
  | or (left right : Formula)
  | xor (left right : Formula)

namespace Formula

instance : Complement Formula := ⟨.not⟩

instance : AndOp Formula := ⟨.and⟩

instance : OrOp Formula := ⟨.or⟩

instance : XorOp Formula := ⟨.xor⟩

/-- `*dest = formula`, before the value is cut to the depth. -/
def eval (patValue srcValue destValue : BitVec 32) : Formula -> BitVec 32
  | pat => patValue
  | src => srcValue
  | dest => destValue
  | not operand => ~~~ operand.eval patValue srcValue destValue
  | and left right => left.eval patValue srcValue destValue &&& right.eval patValue srcValue destValue
  | or left right => left.eval patValue srcValue destValue ||| right.eval patValue srcValue destValue
  | xor left right => left.eval patValue srcValue destValue ^^^ right.eval patValue srcValue destValue

def bit (patBit srcBit destBit : Bool) : Formula -> Bool
  | pat => patBit
  | src => srcBit
  | dest => destBit
  | not operand => !operand.bit patBit srcBit destBit
  | and left right => left.bit patBit srcBit destBit && right.bit patBit srcBit destBit
  | or left right => left.bit patBit srcBit destBit || right.bit patBit srcBit destBit
  | xor left right => left.bit patBit srcBit destBit ^^ right.bit patBit srcBit destBit

theorem getLsbD_eval (patValue srcValue destValue : BitVec 32) (formula : Formula) {place : Nat} (inside : place < 32) :
    (formula.eval patValue srcValue destValue).getLsbD place =
      formula.bit (patValue.getLsbD place) (srcValue.getLsbD place) (destValue.getLsbD place) := by
  induction formula with
  | pat => rfl
  | src => rfl
  | dest => rfl
  | not operand ih => rw [eval, bit, BitVec.getLsbD_not, ih, decide_eq_true inside, Bool.true_and]
  | and left right first second => rw [eval, bit, BitVec.getLsbD_and, first, second]
  | or left right first second => rw [eval, bit, BitVec.getLsbD_or, first, second]
  | xor left right first second => rw [eval, bit, BitVec.getLsbD_xor, first, second]

end Formula

section Handlers

open Formula

def handlers : List (Nat × Formula) :=
  [ (0x01, ~~~(pat ||| src ||| dest)), (0x02, ~~~(pat ||| src) &&& dest), (0x04, ~~~(pat ||| dest) &&& src),
    (0x06, ~~~(~~~(src ^^^ dest) ||| pat)), (0x07, ~~~((src &&& dest) ||| pat)), (0x08, ~~~pat &&& dest &&& src),
    (0x09, ~~~((src ^^^ dest) ||| pat)), (0x0b, ~~~((~~~dest &&& src) ||| pat)),
    (0x0d, ~~~((~~~src &&& dest) ||| pat)), (0x0e, ~~~(~~~(src ||| dest) ||| pat)),
    (0x10, ~~~(src ||| dest) &&& pat), (0x12, ~~~(~~~(pat ^^^ dest) ||| src)), (0x13, ~~~((pat &&& dest) ||| src)),
    (0x14, ~~~(~~~(pat ^^^ src) ||| dest)), (0x15, ~~~((pat &&& src) ||| dest)),
    (0x16, (~~~(pat &&& src) &&& dest) ^^^ src ^^^ pat), (0x17, ~~~(((src ^^^ dest) &&& (src ^^^ pat)) ^^^ src)),
    (0x18, (src ^^^ pat) &&& (pat ^^^ dest)), (0x19, ~~~((~~~(pat &&& src) &&& dest) ^^^ src)),
    (0x1a, ((pat &&& src) ||| dest) ^^^ pat), (0x1b, ~~~(((pat ^^^ src) &&& dest) ^^^ src)),
    (0x1c, ((pat &&& dest) ||| src) ^^^ pat), (0x1d, ~~~(((pat ^^^ dest) &&& src) ^^^ dest)),
    (0x1e, (dest ||| src) ^^^ pat), (0x1f, ~~~((src ||| dest) &&& pat)), (0x20, ~~~src &&& pat &&& dest),
    (0x21, ~~~((pat ^^^ dest) ||| src)), (0x23, ~~~((~~~dest &&& pat) ||| src)),
    (0x24, (src ^^^ pat) &&& (dest ^^^ src)), (0x25, ~~~((~~~(src &&& pat) &&& dest) ^^^ pat)),
    (0x26, ((src &&& pat) ||| dest) ^^^ src), (0x27, (~~~(src ^^^ pat) ||| dest) ^^^ src),
    (0x28, (pat ^^^ src) &&& dest), (0x29, ~~~(((src &&& pat) ||| dest) ^^^ src ^^^ pat)),
    (0x2a, ~~~(src &&& pat) &&& dest), (0x2b, ~~~(((pat ^^^ dest) &&& (src ^^^ pat)) ^^^ src)),
    (0x2c, ((src ||| dest) &&& pat) ^^^ src), (0x2d, (~~~dest ||| src) ^^^ pat),
    (0x2e, ((pat ^^^ dest) ||| src) ^^^ pat), (0x2f, ~~~((~~~dest ||| src) &&& pat)),
    (0x31, ~~~((~~~pat &&& dest) ||| src)), (0x32, (src ||| pat ||| dest) ^^^ src),
    (0x34, ((src &&& dest) ||| pat) ^^^ src), (0x35, (~~~(src ^^^ dest) ||| pat) ^^^ src),
    (0x36, (pat ||| dest) ^^^ src), (0x37, ~~~((pat ||| dest) &&& src)), (0x38, ((pat ||| dest) &&& src) ^^^ pat),
    (0x39, (~~~dest ||| pat) ^^^ src), (0x3a, ((src ^^^ dest) ||| pat) ^^^ src),
    (0x3b, ~~~((~~~dest ||| pat) &&& src)), (0x3d, (~~~(src ||| dest) ||| pat) ^^^ src),
    (0x3e, ((~~~src &&& dest) ||| pat) ^^^ src), (0x40, ~~~dest &&& src &&& pat),
    (0x41, ~~~((src ^^^ pat) ||| dest)), (0x42, (src ^^^ dest) &&& (pat ^^^ dest)),
    (0x43, ~~~((~~~(src &&& dest) &&& pat) ^^^ src)), (0x45, ~~~((~~~src &&& pat) ||| dest)),
    (0x46, ((dest &&& pat) ||| src) ^^^ dest), (0x47, ~~~(((pat ^^^ dest) &&& src) ^^^ pat)),
    (0x48, (pat ^^^ dest) &&& src), (0x49, ~~~(((dest &&& pat) ||| src) ^^^ dest ^^^ pat)),
    (0x4a, ((dest ||| src) &&& pat) ^^^ dest), (0x4b, (~~~src ||| dest) ^^^ pat), (0x4c, ~~~(pat &&& dest) &&& src),
    (0x4d, ~~~(((src ^^^ dest) ||| (src ^^^ pat)) ^^^ src)), (0x4e, ((pat ^^^ src) ||| dest) ^^^ pat),
    (0x4f, ~~~((~~~src ||| dest) &&& pat)), (0x51, ~~~((~~~pat &&& src) ||| dest)),
    (0x52, ((dest &&& src) ||| pat) ^^^ dest), (0x53, ~~~(((src ^^^ dest) &&& pat) ^^^ src)),
    (0x54, ~~~(~~~(src ||| pat) ||| dest)), (0x56, (src ||| pat) ^^^ dest), (0x57, ~~~((src ||| pat) &&& dest)),
    (0x58, ((pat ||| src) &&& dest) ^^^ pat), (0x59, (~~~src ||| pat) ^^^ dest),
    (0x5b, (~~~(dest ||| src) ||| pat) ^^^ dest), (0x5c, ((dest ^^^ src) ||| pat) ^^^ dest),
    (0x5d, ~~~((~~~src ||| pat) &&& dest)), (0x5e, ((~~~dest &&& src) ||| pat) ^^^ dest),
    (0x60, (src ^^^ dest) &&& pat), (0x61, ~~~(((src &&& dest) ||| pat) ^^^ src ^^^ dest)),
    (0x62, ((dest ||| pat) &&& src) ^^^ dest), (0x63, (~~~pat ||| dest) ^^^ src),
    (0x64, ((src ||| pat) &&& dest) ^^^ src), (0x65, (~~~pat ||| src) ^^^ dest),
    (0x67, (~~~(src ||| pat) ||| dest) ^^^ src), (0x68, ~~~((~~~(src ||| dest) ||| pat) ^^^ src ^^^ dest)),
    (0x69, ~~~(src ^^^ dest ^^^ pat)), (0x6a, (src &&& pat) ^^^ dest),
    (0x6b, ~~~(((src ||| pat) &&& dest) ^^^ src ^^^ pat)), (0x6c, (pat &&& dest) ^^^ src),
    (0x6d, ~~~(((dest ||| pat) &&& src) ^^^ dest ^^^ pat)), (0x6e, ((~~~src ||| pat) &&& dest) ^^^ src),
    (0x6f, ~~~(~~~(src ^^^ dest) &&& pat)), (0x70, ~~~(src &&& dest) &&& pat),
    (0x71, ~~~(((dest ^^^ pat) &&& (src ^^^ dest)) ^^^ src)), (0x72, ((src ^^^ pat) ||| dest) ^^^ src),
    (0x73, ~~~((~~~pat ||| dest) &&& src)), (0x74, ((dest ^^^ pat) ||| src) ^^^ dest),
    (0x75, ~~~((~~~pat ||| src) &&& dest)), (0x76, ((~~~src &&& pat) ||| dest) ^^^ src),
    (0x78, (src &&& dest) ^^^ pat), (0x79, ~~~(((src ||| dest) &&& pat) ^^^ src ^^^ dest)),
    (0x7a, ((~~~dest ||| src) &&& pat) ^^^ dest), (0x7b, ~~~(~~~(pat ^^^ dest) &&& src)),
    (0x7c, ((~~~src ||| dest) &&& pat) ^^^ src), (0x7d, ~~~(~~~(src ^^^ pat) &&& dest)),
    (0x7e, (src ^^^ dest) ||| (pat ^^^ src)), (0x7f, ~~~(src &&& pat &&& dest)), (0x80, src &&& pat &&& dest),
    (0x81, ~~~((src ^^^ dest) ||| (pat ^^^ src))), (0x82, ~~~(src ^^^ pat) &&& dest),
    (0x83, ~~~(((~~~src ||| dest) &&& pat) ^^^ src)), (0x84, ~~~(pat ^^^ dest) &&& src),
    (0x85, ~~~(((~~~pat ||| src) &&& dest) ^^^ pat)), (0x86, ((src ||| dest) &&& pat) ^^^ src ^^^ dest),
    (0x87, ~~~((src &&& dest) ^^^ pat)), (0x89, ~~~(((~~~src &&& pat) ||| dest) ^^^ src)),
    (0x8a, (~~~pat ||| src) &&& dest), (0x8b, ~~~(((dest ^^^ pat) ||| src) ^^^ dest)),
    (0x8c, (~~~pat ||| dest) &&& src), (0x8d, ~~~(((src ^^^ pat) ||| dest) ^^^ src)),
    (0x8e, ((dest ^^^ pat) &&& (dest ^^^ src)) ^^^ src), (0x8f, ~~~(~~~(src &&& dest) &&& pat)),
    (0x90, ~~~(src ^^^ dest) &&& pat), (0x91, ~~~(((~~~src ||| pat) &&& dest) ^^^ src)),
    (0x92, ((pat ||| dest) &&& src) ^^^ pat ^^^ dest), (0x93, ~~~((dest &&& pat) ^^^ src)),
    (0x94, ((src ||| pat) &&& dest) ^^^ src ^^^ pat), (0x95, ~~~((src &&& pat) ^^^ dest)),
    (0x96, src ^^^ pat ^^^ dest), (0x97, (~~~(src ||| pat) ||| dest) ^^^ src ^^^ pat),
    (0x98, ~~~((~~~(src ||| pat) ||| dest) ^^^ src)), (0x9a, (~~~src &&& pat) ^^^ dest),
    (0x9b, ~~~(((src ||| pat) &&& dest) ^^^ src)), (0x9c, (~~~dest &&& pat) ^^^ src),
    (0x9d, ~~~(((dest ||| pat) &&& src) ^^^ dest)), (0x9e, ((src &&& dest) ||| pat) ^^^ src ^^^ dest),
    (0x9f, ~~~((src ^^^ dest) &&& pat)), (0xa1, ~~~(((~~~pat &&& src) ||| dest) ^^^ pat)),
    (0xa2, (~~~src ||| pat) &&& dest), (0xa3, ~~~(((dest ^^^ src) ||| pat) ^^^ dest)),
    (0xa4, ~~~((~~~(pat ||| src) ||| dest) ^^^ pat)), (0xa6, (~~~pat &&& src) ^^^ dest),
    (0xa7, ~~~(((pat ||| src) &&& dest) ^^^ pat)), (0xa8, (src ||| pat) &&& dest),
    (0xa9, ~~~((src ||| pat) ^^^ dest)), (0xab, ~~~(src ||| pat) ||| dest), (0xac, ((src ^^^ dest) &&& pat) ^^^ src),
    (0xad, ~~~(((dest &&& src) ||| pat) ^^^ dest)), (0xae, (~~~pat &&& src) ||| dest),
    (0xb0, (~~~src ||| dest) &&& pat), (0xb1, ~~~(((pat ^^^ src) ||| dest) ^^^ pat)),
    (0xb2, ((src ^^^ dest) ||| (pat ^^^ src)) ^^^ src), (0xb3, ~~~(~~~(pat &&& dest) &&& src)),
    (0xb4, (~~~dest &&& src) ^^^ pat), (0xb5, ~~~(((dest ||| src) &&& pat) ^^^ dest)),
    (0xb6, ((pat &&& dest) ||| src) ^^^ pat ^^^ dest), (0xb7, ~~~((pat ^^^ dest) &&& src)),
    (0xb8, ((dest ^^^ pat) &&& src) ^^^ pat), (0xb9, ~~~(((dest &&& pat) ||| src) ^^^ dest)),
    (0xba, (~~~src &&& pat) ||| dest), (0xbc, (~~~(src &&& dest) &&& pat) ^^^ src),
    (0xbd, ~~~((dest ^^^ pat) &&& (dest ^^^ src))), (0xbe, (src ^^^ pat) ||| dest),
    (0xbf, ~~~(src &&& pat) ||| dest), (0xc1, ~~~(((~~~src &&& dest) ||| pat) ^^^ src)),
    (0xc2, ~~~((~~~(src ||| dest) ||| pat) ^^^ src)), (0xc4, (~~~dest ||| pat) &&& src),
    (0xc5, ~~~(((src ^^^ dest) ||| pat) ^^^ src)), (0xc6, (~~~pat &&& dest) ^^^ src),
    (0xc7, ~~~(((pat ||| dest) &&& src) ^^^ pat)), (0xc8, (pat ||| dest) &&& src),
    (0xc9, ~~~((dest ||| pat) ^^^ src)), (0xca, ((dest ^^^ src) &&& pat) ^^^ dest),
    (0xcb, ~~~(((src &&& dest) ||| pat) ^^^ src)), (0xcd, ~~~(pat ||| dest) ||| src),
    (0xce, (~~~pat &&& dest) ||| src), (0xd0, (~~~dest ||| src) &&& pat),
    (0xd1, ~~~(((pat ^^^ dest) ||| src) ^^^ pat)), (0xd2, (~~~src &&& dest) ^^^ pat),
    (0xd3, ~~~(((src ||| dest) &&& pat) ^^^ src)), (0xd4, ((dest ^^^ pat) &&& (pat ^^^ src)) ^^^ src),
    (0xd5, ~~~(~~~(src &&& pat) &&& dest)), (0xd6, ((src &&& pat) ||| dest) ^^^ src ^^^ pat),
    (0xd7, ~~~((src ^^^ pat) &&& dest)), (0xd8, ((pat ^^^ src) &&& dest) ^^^ pat),
    (0xd9, ~~~(((src &&& pat) ||| dest) ^^^ src)), (0xda, (~~~(dest &&& src) &&& pat) ^^^ dest),
    (0xdb, ~~~((src ^^^ dest) &&& (pat ^^^ src))), (0xdc, (~~~dest &&& pat) ||| src), (0xde, (pat ^^^ dest) ||| src),
    (0xdf, ~~~(pat &&& dest) ||| src), (0xe0, (src ||| dest) &&& pat), (0xe1, ~~~((src ||| dest) ^^^ pat)),
    (0xe2, ((dest ^^^ pat) &&& src) ^^^ dest), (0xe3, ~~~(((pat &&& dest) ||| src) ^^^ pat)),
    (0xe4, ((src ^^^ pat) &&& dest) ^^^ src), (0xe5, ~~~(((pat &&& src) ||| dest) ^^^ pat)),
    (0xe6, (~~~(src &&& pat) &&& dest) ^^^ src), (0xe7, ~~~((dest ^^^ pat) &&& (pat ^^^ src))),
    (0xe8, ((src ^^^ dest) &&& (pat ^^^ src)) ^^^ src), (0xe9, ~~~((~~~(src &&& dest) &&& pat) ^^^ src ^^^ dest)),
    (0xea, (src &&& pat) ||| dest), (0xeb, ~~~(src ^^^ pat) ||| dest), (0xec, (pat &&& dest) ||| src),
    (0xed, ~~~(pat ^^^ dest) ||| src), (0xef, ~~~pat ||| dest ||| src), (0xf1, ~~~(src ||| dest) ||| pat),
    (0xf2, (~~~src &&& dest) ||| pat), (0xf4, (~~~dest &&& src) ||| pat), (0xf6, (src ^^^ dest) ||| pat),
    (0xf7, ~~~(src &&& dest) ||| pat), (0xf8, (src &&& dest) ||| pat), (0xf9, ~~~(src ^^^ dest) ||| pat),
    (0xfb, ~~~src ||| pat ||| dest), (0xfd, ~~~dest ||| src ||| pat), (0xfe, src ||| pat ||| dest)]

end Handlers

/-- The handler that `rop3_init` sets; the others are not implemented. -/
def handlerOf (rop3 : UInt8) : Option Formula := handlers.lookup rop3.toNat

def rop3Bit (rop3 : Nat) (patBit srcBit destBit : Bool) : Bool :=
  rop3.testBit (4 * patBit.toNat + 2 * srcBit.toNat + destBit.toNat)

/-- The result depends on all three inputs. -/
def NeedsAll (rop3 : Nat) : Prop :=
  (Exists fun srcBit => Exists fun destBit => rop3Bit rop3 false srcBit destBit ≠ rop3Bit rop3 true srcBit destBit) ∧
    (Exists fun patBit => Exists fun destBit => rop3Bit rop3 patBit false destBit ≠ rop3Bit rop3 patBit true destBit) ∧
    Exists fun patBit => Exists fun srcBit => rop3Bit rop3 patBit srcBit false ≠ rop3Bit rop3 patBit srcBit true

instance (rop3 : Nat) : Decidable (NeedsAll rop3) := inferInstanceAs (Decidable (_ ∧ _ ∧ _))

theorem bit_handlers : forall entry, entry ∈ handlers -> forall patBit srcBit destBit,
    entry.2.bit patBit srcBit destBit = rop3Bit entry.1 patBit srcBit destBit := by
  decide +kernel

/-- The codes that are implemented are those that depend on all three inputs. -/
theorem handlerOf_isSome_iff (rop3 : UInt8) : (handlerOf rop3).isSome = true <-> NeedsAll rop3.toNat := by
  have all : forall code, code < 256 -> ((handlers.lookup code).isSome = true <-> NeedsAll code) := by decide +kernel
  exact all rop3.toNat rop3.toNat_lt

theorem bit_handlerOf {rop3 : UInt8} {formula : Formula} (isHandler : handlerOf rop3 = some formula)
    (patBit srcBit destBit : Bool) :
    formula.bit patBit srcBit destBit = rop3Bit rop3.toNat patBit srcBit destBit := by
  unfold handlerOf at isHandler
  rw [List.lookup_eq_some_iff] at isHandler
  rcases isHandler with ⟨before, after, same, _⟩
  exact bit_handlers (rop3.toNat, formula)
    (same ▸ List.mem_append_right before List.mem_cons_self) patBit srcBit destBit

/-! ## Images -/

/-- The pixels of an image, of which only those inside may be used. -/
structure Image where
  bpp : Nat
  width : Nat
  height : Nat
  stride : Int
  pixel : Int -> Int -> BitVec 32

inductive Fault
  | notImplemented
  | badSource
  | depth
  | overflow
  | outside
deriving DecidableEq

namespace Image

def Inside (image : Image) (x y : Int) : Prop := (0 ≤ x ∧ x < image.width) ∧ 0 ≤ y ∧ y < image.height

instance (image : Image) (x y : Int) : Decidable (image.Inside x y) := inferInstanceAs (Decidable (_ ∧ _))

/-- The two byte offsets of a pixel are `int`; the one of a column is counted in some unit. -/
def Offsets (image : Image) (unit : Nat) (x y : Int) : Prop := IsInt32 (y * image.stride) ∧ IsInt32 (x * unit)

instance (image : Image) (unit : Nat) (x y : Int) : Decidable (image.Offsets unit x y) :=
  inferInstanceAs (Decidable (_ ∧ _))

def read (image : Image) (x y : Int) : Except Fault (BitVec 32) :=
  if image.Inside x y then .ok (image.pixel x y) else .error .outside

/-- A value as a pixel of the image. -/
def cut (image : Image) (value : BitVec 32) : BitVec 32 := (value.setWidth image.bpp).setWidth 32

def write (image : Image) (x y : Int) (value : BitVec 32) : Image :=
  { image with pixel := fun column row => if column = x ∧ row = y then image.cut value else image.pixel column row }

end Image

/-- What the handlers get for the pattern. -/
inductive Pat
  | color (rgb : BitVec 32)
  | image (p : Image) (wide : 0 < p.width) (high : 0 < p.height)

namespace Pat

def read : Pat -> Int -> Int -> Except Fault (BitVec 32)
  | color rgb, _, _ => .ok rgb
  | image p _ _, x, y => if p.Offsets p.bpp x y then p.read x y else .error .overflow

/-- `pat_h_offset = (pat_h_offset + 1) % pat_width`. -/
def nextH : Pat -> Int -> Int
  | color _, offset => offset
  | image p _ _, offset => (offset + 1).tmod p.width

def nextV : Pat -> Int -> Int
  | color _, offset => offset
  | image p _ _, offset => (offset + 1).tmod p.height

def SameDepth (bpp : Nat) : Pat -> Prop
  | color _ => True
  | image p _ _ => bpp = p.bpp

instance (bpp : Nat) (pat : Pat) : Decidable (pat.SameDepth bpp) :=
  match pat with
  | color _ => inferInstanceAs (Decidable True)
  | image p _ _ => inferInstanceAs (Decidable (bpp = p.bpp))

end Pat

section Handle

variable (formula : Formula) (s : Image) (srcX srcY : Int) (pat : Pat)

/-- The rest of a line. -/
def columns (y : Nat) (patV : Int) : Nat -> Nat -> Int -> Image -> Except Fault Image
  | _, 0, _, d => .ok d
  | x, left + 1, patH, d => do
      let patValue <- pat.read patH patV
      let srcValue <- s.read (srcX + x) (srcY + y)
      let destValue <- d.read x y
      columns y patV (x + 1) left (pat.nextH patH) (d.write x y (formula.eval patValue srcValue destValue))

/-- The rest of the lines. -/
def rows (patH : Int) : Nat -> Nat -> Int -> Image -> Except Fault Image
  | _, 0, _, d => .ok d
  | y, left + 1, patV, d => do
      let next <- columns formula s srcX srcY pat y patV 0 d.width patH d
      rows patH (y + 1) left (pat.nextV patV) next

end Handle

/-- The loops of a handler; the lines of both images are found first. -/
def handle (formula : Formula) (d s : Image) (srcX srcY : Int) (pat : Pat) (patH patV : Int) : Except Fault Image :=
  if IsInt32 (d.height * d.stride) ∧ s.Offsets d.bpp srcX srcY then
    rows formula s srcX srcY pat patH 0 d.height patV d
  else .error .overflow

/-- `do_rop3_with_pattern`, and `do_rop3_with_color`. -/
def doRop3 (rop3 : UInt8) (d s : Image) (srcX srcY : Int) (pat : Pat) (patH patV : Int) : Except Fault Image :=
  if d.bpp = s.bpp ∧ pat.SameDepth d.bpp then
    match handlerOf rop3 with
    | none => .error .notImplemented
    | some formula => handle formula d s srcX srcY pat patH patV
  else .error .depth

/-! ## The command -/

/-- What the library decides: the stride of an image that it allocates, and whether `pixman_blt` copies pixels. -/
structure Pixman where
  stride : Int
  blt : Bool

/-- The part of the canvas in an image of its own. -/
def selfImage (pixman : Pixman) (canvas : Image) (bbox : Region.Box) : Image where
  bpp := canvas.bpp
  width := (bbox.x2 - bbox.x1).toNat
  height := (bbox.y2 - bbox.y1).toNat
  stride := pixman.stride
  pixel x y := canvas.pixel (bbox.x1 + x) (bbox.y1 + y)

/-- The byte offsets of `canvas_read_bits` are `int`. -/
def SelfOffsets (canvas d : Image) (bbox : Region.Box) : Prop :=
  canvas.Offsets (canvas.bpp / 8) bbox.x1 bbox.y1 ∧ d.Offsets (d.bpp / 8) d.width d.height

instance (canvas d : Image) (bbox : Region.Box) : Decidable (SelfOffsets canvas d bbox) :=
  inferInstanceAs (Decidable (_ ∧ _))

def getImageFromSelf (pixman : Pixman) (canvas : Image) (bbox : Region.Box) : Except Fault Image :=
  if SelfOffsets canvas (selfImage pixman canvas bbox) bbox then .ok (selfImage pixman canvas bbox)
  else .error .overflow

/-- The byte offsets of `spice_pixman_blit` are `int`, where it copies by itself. -/
def BlitOffsets (pixman : Pixman) (canvas : Image) (destRegion : QRegion) (d : Image) (offsetX offsetY : Int) : Prop :=
  pixman.blt = false -> forall box, box ∈ destRegion.rectangles ->
    canvas.Offsets (canvas.bpp / 8) box.x1 box.y1 ∧ d.Offsets (d.bpp / 8) (box.x1 - offsetX) (box.y1 - offsetY)

instance (pixman : Pixman) (canvas : Image) (destRegion : QRegion) (d : Image) (offsetX offsetY : Int) :
    Decidable (BlitOffsets pixman canvas destRegion d offsetX offsetY) := by
  unfold BlitOffsets
  infer_instance

/-- The canvas with the pixels of the region from an image. -/
def blitted (canvas : Image) (destRegion : QRegion) (d : Image) (offsetX offsetY : Int) : Image :=
  { canvas with
    pixel := destRegion.rectangles.foldl
      (fun pixel box x y => if box.Has (x, y) then d.pixel (x - offsetX) (y - offsetY) else pixel x y) canvas.pixel }

/-- `blit_image`, of an image that lies in the canvas. -/
def blitImage (pixman : Pixman) (canvas : Image) (destRegion : QRegion) (d : Image) (offsetX offsetY : Int) :
    Except Fault Image :=
  if BlitOffsets pixman canvas destRegion d offsetX offsetY then .ok (blitted canvas destRegion d offsetX offsetY)
  else .error .overflow

/-- The difference of two `int`. -/
def difference (first second : Int) : Except Fault Int :=
  if IsInt32 (first - second) then .ok (first - second) else .error .overflow

/-- The source has all pixels to the right and below of its position that are needed. -/
def checkSource (s : Image) (srcX srcY : Int) (bbox : Region.Box) : Except Fault Unit := do
  let right <- difference s.width srcX
  let below <- difference s.height srcY
  if right < bbox.x2 - bbox.x1 ∨ below < bbox.y2 - bbox.y1 then .error .badSource else .ok ()

/-- `pat_pos`; a brush with a colour has none. -/
def patPos (bbox : Region.Box) (posX posY : Int) : Pat -> Except Fault (Int × Int)
  | .color _ => .ok (0, 0)
  | .image p _ _ => do
      let offsetX <- difference bbox.x1 posX
      let offsetY <- difference bbox.y1 posY
      return (offsetX.tmod p.width, offsetY.tmod p.height)

/-- `canvas_draw_rop3`, of a box inside of the canvas; the brush is a pattern at a position, or a colour. -/
def canvasDrawRop3 (pixman : Pixman) (canvas : Image) (bbox : Region.Box) (destRegion : QRegion) (s : Image)
    (srcX srcY : Int) (rop3 : UInt8) (brush : Pat) (posX posY : Int) : Except Fault Image := do
  let d <- getImageFromSelf pixman canvas bbox
  checkSource s srcX srcY bbox
  let pos <- patPos bbox posX posY brush
  let combined <- doRop3 rop3 d s srcX srcY brush pos.1 pos.2
  blitImage pixman canvas destRegion combined bbox.x1 bbox.y1

/-! ## What is asked for -/

/-- The pixel of the pattern for a pixel: the position is wrapped around, never to a negative one. -/
def Pat.pixelFor (posX posY : Int) (x y : Int) : Pat -> BitVec 32
  | color rgb => rgb
  | image p _ _ => p.pixel ((x - posX) % p.width) ((y - posY) % p.height)

/-- Each clipped pixel is combined bit by bit, and the others are kept. -/
structure Combined (canvas : Image) (bbox : Region.Box) (destRegion : QRegion) (s : Image) (srcX srcY : Int)
    (rop3 : UInt8)
    (brush : Pat) (posX posY : Int) (final : Image) : Prop where
  changed : forall x y, (x, y) ∈ destRegion.points -> forall place, place < canvas.bpp ->
    (final.pixel x y).getLsbD place =
      rop3Bit rop3.toNat ((brush.pixelFor posX posY x y).getLsbD place)
        ((s.pixel (srcX + (x - bbox.x1)) (srcY + (y - bbox.y1))).getLsbD place) ((canvas.pixel x y).getLsbD place)
  kept : forall x y, (x, y) ∉ destRegion.points -> final.pixel x y = canvas.pixel x y

/-- The byte offsets of the pixel of the pattern at a place are `int`. -/
def Pat.Offsets : Pat -> Int -> Int -> Prop
  | color _, _, _ => True
  | image p _ _, x, y => p.Offsets p.bpp (x % p.width) (y % p.height)

/-- The images have one depth, the operation is implemented, the first pixels of the source and of the pattern are
inside of their images, and the byte offsets of all of the images are `int`. -/
structure Fits (pixman : Pixman) (canvas : Image) (bbox : Region.Box) (destRegion : QRegion) (s : Image)
    (srcX srcY : Int) (rop3 : UInt8) (brush : Pat) (posX posY : Int) : Prop where
  depth : canvas.bpp = s.bpp ∧ brush.SameDepth canvas.bpp
  implemented : NeedsAll rop3.toNat
  source : bbox.x1 < bbox.x2 -> bbox.y1 < bbox.y2 -> 0 ≤ srcX ∧ 0 ≤ srcY
  pattern : forall p wide high, brush = .image p wide high ->
    (IsInt32 (bbox.x1 - posX) ∧ IsInt32 (bbox.y1 - posY)) ∧ (bbox.x1 < bbox.x2 -> bbox.y1 < bbox.y2 ->
      (posX ≤ bbox.x1 ∨ (p.width : Int) ∣ bbox.x1 - posX) ∧ (posY ≤ bbox.y1 ∨ (p.height : Int) ∣ bbox.y1 - posY))
  selfOffsets : SelfOffsets canvas (selfImage pixman canvas bbox) bbox
  sourceOffsets : s.Offsets canvas.bpp srcX srcY
  patternOffsets : forall x y, bbox.Has (x, y) -> brush.Offsets (x - posX) (y - posY)
  blitOffsets : BlitOffsets pixman canvas destRegion (selfImage pixman canvas bbox) bbox.x1 bbox.y1

theorem bind_eq_ok {A B : Type} {first : Except Fault A} {next : A -> Except Fault B} {value : B} :
    (first >>= next) = .ok value <-> Exists fun middle => first = .ok middle ∧ next middle = .ok value := by
  cases first with
  | error fault => exact ⟨(by cases ·), fun some => by rcases some with ⟨_, isOk, _⟩; cases isOk⟩
  | ok middle =>
      constructor
      · exact fun isOk => ⟨middle, rfl, isOk⟩
      · rintro ⟨other, same, isOk⟩
        rw [Except.ok.inj same]
        exact isOk

/-! ## The loops -/

namespace Pat

/-- An offset that was wrapped around, for each direction. -/
def wrapH : Pat -> Int -> Int
  | color _, _ => 0
  | image p _ _, offset => offset % p.width

def wrapV : Pat -> Int -> Int
  | color _, _ => 0
  | image p _ _, offset => offset % p.height

def value (x y : Int) : Pat -> BitVec 32
  | color rgb => rgb
  | image p _ _ => p.pixel (x % p.width) (y % p.height)

theorem next_emod {offset : Int} {size : Nat} (some : 0 < size) :
    (offset % size + 1).tmod size = (offset + 1) % size := by
  have low := Int.emod_nonneg offset (show (size : Int) ≠ 0 by omega)
  rw [Int.tmod_eq_emod_of_nonneg (by omega), Int.emod_add_emod]

theorem nextH_wrapH (pat : Pat) (offset : Int) : pat.nextH (pat.wrapH offset) = pat.wrapH (offset + 1) := by
  cases pat with
  | color _ => rfl
  | image p wide high => exact next_emod wide

theorem nextV_wrapV (pat : Pat) (offset : Int) : pat.nextV (pat.wrapV offset) = pat.wrapV (offset + 1) := by
  cases pat with
  | color _ => rfl
  | image p wide high => exact next_emod high

theorem inside_wrap (p : Image) (wide : 0 < p.width) (high : 0 < p.height) (x y : Int) :
    p.Inside (x % p.width) (y % p.height) :=
  ⟨⟨Int.emod_nonneg x (by omega), Int.emod_lt_of_pos x (by omega)⟩,
    Int.emod_nonneg y (by omega), Int.emod_lt_of_pos y (by omega)⟩

/-- The pixel at a wrapped offset is read if and only if its byte offsets are `int`. -/
theorem read_wrap (pat : Pat) (x y : Int) : pat.read (pat.wrapH x) (pat.wrapV y) = .ok (pat.value x y) <->
    pat.Offsets x y := by
  cases pat with
  | color _ => exact iff_of_true rfl trivial
  | image p wide high =>
      unfold read wrapH wrapV value Pat.Offsets
      dsimp only
      split
      · next offsets => exact iff_of_true (if_pos (inside_wrap p wide high x y)) offsets
      · next offsets => exact iff_of_false (fun isOk => by cases isOk) offsets

theorem offsets_of_read {pat : Pat} {x y : Int} {value : BitVec 32}
    (isOk : pat.read (pat.wrapH x) (pat.wrapV y) = .ok value) : pat.Offsets x y := by
  cases pat with
  | color _ => trivial
  | image p wide high =>
      unfold read wrapH wrapV at isOk
      dsimp only at isOk
      split at isOk
      · next offsets => exact offsets
      · cases isOk

end Pat

section Loops

variable (formula : Formula) (s : Image) (srcX srcY : Int) (pat : Pat) (a b : Int)

/-- The pixels of a part are combined; the pattern of the first pixel is at an offset. -/
def paint (d : Image) (part : Int -> Int -> Bool) : Image :=
  { d with
    pixel := fun x y =>
      if part x y then d.cut (formula.eval (pat.value (a + x) (b + y)) (s.pixel (srcX + x) (srcY + y)) (d.pixel x y))
      else d.pixel x y }

theorem paint_paint (d : Image) {first second both : Int -> Int -> Bool}
    (apart : forall x y, second x y = true -> first x y = false)
    (all : forall x y, both x y = (first x y || second x y)) :
    paint formula s srcX srcY pat a b (paint formula s srcX srcY pat a b d first) second =
      paint formula s srcX srcY pat a b d both := by
  unfold paint Image.cut
  congr 1
  funext x y
  rw [all]
  cases inSecond : second x y with
  | true => simp [apart x y inSecond]
  | false => simp

variable {formula s srcX srcY pat a b}

/-- A line inside of both images is drawn. -/
theorem columns_ok {y : Nat} : forall {left x : Nat} {d : Image}, x + left = d.width -> y < d.height ->
    (forall column : Nat, column < d.width -> s.Inside (srcX + column) (srcY + y)) ->
    (forall column : Nat, column < d.width -> pat.Offsets (a + column) (b + y)) ->
      columns formula s srcX srcY pat y (pat.wrapV (b + y)) x left (pat.wrapH (a + x)) d =
        .ok (paint formula s srcX srcY pat a b d (fun column row => row = y && x ≤ column && column < d.width)) := by
  intro left
  induction left with
  | zero =>
      intro x d all _ _ _
      have none :
          (fun column row : Int => decide (row = y) && decide ((x : Int) ≤ column) && decide (column < d.width)) =
          fun _ _ => false := by
        funext column row
        simp only [Bool.and_eq_false_iff, decide_eq_false_iff_not]
        omega
      rw [none]
      rfl
  | succ left ih =>
      intro x d all row source offsets
      have patValue := (pat.read_wrap (a + x) (b + y)).mpr (offsets x (by omega))
      have dest : d.read x y = .ok (d.pixel x y) := if_pos ⟨⟨by omega, by omega⟩, by omega, by omega⟩
      have src : s.read (srcX + x) (srcY + y) = .ok (s.pixel (srcX + x) (srcY + y)) := if_pos (source x (by omega))
      have written :
          d.write x y (formula.eval (pat.value (a + x) (b + y)) (s.pixel (srcX + x) (srcY + y)) (d.pixel x y)) =
          paint formula s srcX srcY pat a b d (fun column row => column = x && row = y) := by
        unfold Image.write paint
        congr 1
        funext column line
        by_cases here : column = x ∧ line = y
        · rw [if_pos here, here.1, here.2]
          simp
        · rw [if_neg here, if_neg (by simpa using here)]
      unfold columns
      rw [patValue, src, dest, Pat.nextH_wrapH, add_assoc, <- Nat.cast_succ]
      have rest := @ih (x + 1) (paint formula s srcX srcY pat a b d (fun column row => column = x && row = y))
        (show x + 1 + left = d.width by omega) row source offsets
      refine (congrArg _ written).trans (rest.trans ?_)
      rw [paint_paint]
      · intro column line
        simp only [Bool.and_eq_true, Bool.and_eq_false_iff, decide_eq_true_eq, decide_eq_false_iff_not]
        omega
      · intro column line
        rw [Bool.eq_iff_iff]
        simp only [paint, Bool.and_eq_true, Bool.or_eq_true, decide_eq_true_eq]
        omega

/-- Lines inside of both images are drawn. -/
theorem rows_ok : forall {left y : Nat} {d : Image}, y + left = d.height ->
    (forall column row : Nat, column < d.width -> row < d.height -> s.Inside (srcX + column) (srcY + row)) ->
    (forall column row : Nat, column < d.width -> row < d.height -> pat.Offsets (a + column) (b + row)) ->
      rows formula s srcX srcY pat (pat.wrapH a) y left (pat.wrapV (b + y)) d =
        .ok (paint formula s srcX srcY pat a b d
          (fun column row => y ≤ row && row < d.height && 0 ≤ column && column < d.width)) := by
  intro left
  induction left with
  | zero =>
      intro y d all _ _
      have none : (fun column row : Int => decide ((y : Int) ≤ row) && decide (row < d.height) && decide (0 ≤ column) &&
          decide (column < d.width)) = fun _ _ => false := by
        funext column row
        simp only [Bool.and_eq_false_iff, decide_eq_false_iff_not]
        omega
      rw [none]
      rfl
  | succ left ih =>
      intro y d all source offsets
      have line := @columns_ok formula s srcX srcY pat a b y d.width 0 d (by omega) (by omega)
        (fun column inside => source column y inside (by omega))
          (fun column inside => offsets column y inside (by omega))
      rw [Nat.cast_zero, add_zero] at line
      unfold rows
      rw [line, Pat.nextV_wrapV, add_assoc, <- Nat.cast_succ]
      have rest :=
        @ih (y + 1) (paint formula s srcX srcY pat a b d (fun column row => row = y && 0 ≤ column && column < d.width))
        (show y + 1 + left = d.height by omega) source offsets
      refine rest.trans ?_
      rw [paint_paint]
      · intro column row
        simp only [Bool.and_eq_true, Bool.and_eq_false_iff, decide_eq_true_eq, decide_eq_false_iff_not]
        omega
      · intro column row
        rw [Bool.eq_iff_iff]
        simp only [paint, Bool.and_eq_true, Bool.or_eq_true, decide_eq_true_eq]
        omega

/-- A line keeps the size of the image and the lines around it. -/
theorem columns_kept {y : Nat} {patV : Int} : forall {left x : Nat} {patH : Int} {d final : Image},
    columns formula s srcX srcY pat y patV x left patH d = .ok final ->
      final.width = d.width ∧ final.bpp = d.bpp ∧ final.stride = d.stride := by
  intro left
  induction left with
  | zero =>
      intro x patH d final isOk
      cases isOk
      exact ⟨rfl, rfl, rfl⟩
  | succ left ih =>
      intro x patH d final isOk
      unfold columns at isOk
      rcases bind_eq_ok.mp isOk with ⟨patValue, _, isOk⟩
      rcases bind_eq_ok.mp isOk with ⟨srcValue, _, isOk⟩
      rcases bind_eq_ok.mp isOk with ⟨destValue, _, isOk⟩
      have rest := ih isOk
      exact rest

/-- The depth and the stride of the image stay what they are. -/
theorem rows_kept {patH : Int} : forall {left y : Nat} {patV : Int} {d final : Image},
    rows formula s srcX srcY pat patH y left patV d = .ok final -> final.bpp = d.bpp ∧ final.stride = d.stride := by
  intro left
  induction left with
  | zero =>
      intro y patV d final isOk
      cases isOk
      exact ⟨rfl, rfl⟩
  | succ left ih =>
      intro y patV d final isOk
      unfold rows at isOk
      rcases bind_eq_ok.mp isOk with ⟨next, isNext, isOk⟩
      have line := (columns_kept isNext).2
      have rest := ih isOk
      exact ⟨rest.1.trans line.1, rest.2.trans line.2⟩

/-- The pattern has been read for each pixel of a line that was combined. -/
theorem columns_reads {y : Nat} : forall {left x : Nat} {d final : Image},
    columns formula s srcX srcY pat y (pat.wrapV (b + y)) x left (pat.wrapH (a + x)) d = .ok final ->
      forall column : Nat, x ≤ column -> column < x + left -> pat.Offsets (a + column) (b + y) := by
  intro left
  induction left with
  | zero => exact fun _ column after before => by omega
  | succ left ih =>
      intro x d final isOk column after before
      unfold columns at isOk
      rcases bind_eq_ok.mp isOk with ⟨patValue, isPat, isOk⟩
      rcases bind_eq_ok.mp isOk with ⟨srcValue, _, isOk⟩
      rcases bind_eq_ok.mp isOk with ⟨destValue, _, isOk⟩
      rw [Pat.nextH_wrapH, add_assoc, <- Nat.cast_succ] at isOk
      rcases Nat.eq_or_lt_of_le after with rfl | later
      · exact Pat.offsets_of_read isPat
      · exact ih isOk column later (by omega)

/-- Lines that were drawn had their source and pattern in the images. -/
theorem rows_reads : forall {left y : Nat} {d final : Image},
    rows formula s srcX srcY pat (pat.wrapH a) y left (pat.wrapV (b + y)) d = .ok final ->
      forall column row : Nat, column < d.width -> y ≤ row -> row < y + left -> pat.Offsets (a + column) (b + row) := by
  intro left
  induction left with
  | zero => exact fun _ column row _ after before => by omega
  | succ left ih =>
      intro y d final isOk column row inLine after before
      unfold rows at isOk
      rcases bind_eq_ok.mp isOk with ⟨next, isNext, isOk⟩
      rw [Pat.nextV_wrapV, add_assoc, <- Nat.cast_succ] at isOk
      rcases Nat.eq_or_lt_of_le after with rfl | later
      · have fromStart : columns formula s srcX srcY pat y (pat.wrapV (b + y)) 0 d.width (pat.wrapH (a + (0 : Nat))) d =
            .ok next := by
          rw [Nat.cast_zero, add_zero]
          exact isNext
        exact columns_reads fromStart column (Nat.zero_le column) (by omega)
      · exact ih isOk column row ((columns_kept isNext).1.symm ▸ inLine) later (by omega)

/-- A first pixel outside of its image ends the loops. -/
theorem rows_error {d : Image} {patH patV : Int} (wide : 0 < d.width) (high : 0 < d.height)
    (outside : (forall value, pat.read patH patV ≠ .ok value) ∨ ¬ s.Inside srcX srcY) (final : Image) :
    rows formula s srcX srcY pat patH 0 d.height patV d ≠ .ok final := by
  rw [<- Nat.succ_pred_eq_of_pos high]
  intro isOk
  unfold rows at isOk
  rcases bind_eq_ok.mp isOk with ⟨next, isNext, _⟩
  rw [<- Nat.succ_pred_eq_of_pos wide] at isNext
  unfold columns at isNext
  rcases bind_eq_ok.mp isNext with ⟨patValue, isPat, isNext⟩
  rcases bind_eq_ok.mp isNext with ⟨srcValue, isSrc, _⟩
  rcases outside with noValue | notInside
  · exact noValue patValue isPat
  · rw [Nat.cast_zero, add_zero, add_zero, Image.read, if_neg notInside] at isSrc
    cases isSrc

theorem rows_empty {d : Image} {patH : Int} (empty : d.width = 0 ∨ d.height = 0) : forall {left y : Nat} {patV : Int},
    left ≤ d.height -> rows formula s srcX srcY pat patH y left patV d = .ok d := by
  intro left
  induction left with
  | zero => exact fun _ => rfl
  | succ left ih =>
      intro y patV fits
      have none : columns formula s srcX srcY pat y patV 0 d.width patH d = .ok d := by
        rw [empty.resolve_right (by omega)]
        rfl
      unfold rows
      rw [none]
      exact ih (by omega)

end Loops

/-- The pixels of the canvas after the blit. -/
theorem pixel_blitted (canvas : Image) (destRegion : QRegion) (d : Image) (offsetX offsetY x y : Int) :
    (blitted canvas destRegion d offsetX offsetY).pixel x y = open Classical in
      if (x, y) ∈ destRegion.points then d.pixel (x - offsetX) (y - offsetY) else canvas.pixel x y := by
  have all : forall (boxes : List Region.Box) (pixel : Int -> Int -> BitVec 32),
      boxes.foldl (fun pixel box x y => if box.Has (x, y) then d.pixel (x - offsetX) (y - offsetY)
        else pixel x y) pixel x y =
        if boxes.any (fun box => box.Has (x, y)) then d.pixel (x - offsetX) (y - offsetY) else pixel x y := by
    intro boxes
    induction boxes with
    | nil => exact fun pixel => rfl
    | cons box rest ih =>
        intro pixel
        rw [List.foldl_cons, ih, List.any_cons]
        by_cases inRest : rest.any (fun box => box.Has (x, y)) = true
        · rw [inRest, Bool.or_true]
          rfl
        · by_cases has : box.Has (x, y)
          · simp [has]
          · simp [has]
  refine (all destRegion.rectangles canvas.pixel).trans ?_
  congr 1
  rw [List.any_eq_true, QRegion.points]
  simp only [decide_eq_true_eq, Set.mem_ofPred_eq]

/-! ## Negative offsets -/

theorem tmod_nonneg_iff {value : Int} {size : Nat} (some : 0 < size) :
    0 ≤ value.tmod size <-> 0 ≤ value ∨ (size : Int) ∣ value := by
  constructor
  · intro nonneg
    by_contra neither
    rw [not_or, not_le] at neither
    have opposite : value.tmod size = -((-value).tmod size) := by rw [Int.neg_tmod, neg_neg]
    rw [opposite, Int.tmod_eq_emod_of_nonneg (by omega)] at nonneg
    have low := Int.emod_nonneg (-value) (show (size : Int) ≠ 0 by omega)
    exact neither.2 ((Int.dvd_neg).mp (Int.dvd_of_emod_eq_zero (by omega)))
  · rintro (nonneg | divides)
    · exact Int.tmod_nonneg _ nonneg
    · rw [Int.tmod_eq_zero_of_dvd divides]

theorem tmod_eq_emod {value : Int} {size : Nat} (fits : 0 ≤ value ∨ (size : Int) ∣ value) :
    value.tmod size = value % size := by
  rcases fits with nonneg | divides
  · exact Int.tmod_eq_emod_of_nonneg nonneg
  · rw [Int.tmod_eq_zero_of_dvd divides, Int.emod_eq_zero_of_dvd divides]

/-! ## The command as a whole -/

theorem ite_eq_ok {A : Type} {condition : Prop} [Decidable condition] {fault : Fault} {value result : A} :
    (if condition then Except.ok value else .error fault) = .ok result <-> condition ∧ value = result := by
  split
  · next holds => exact ⟨fun isOk => ⟨holds, Except.ok.inj isOk⟩, fun both => congrArg Except.ok both.2⟩
  · next fails =>
    refine ⟨fun isOk => ?_, fun both => absurd both.1 fails⟩
    cases isOk

theorem difference_eq_ok {first second value : Int} :
    difference first second = .ok value <-> IsInt32 (first - second) ∧ value = first - second := by
  unfold difference
  split
  · next isInt =>
    rw [Except.ok.injEq]
    exact ⟨fun same => ⟨isInt, same.symm⟩, fun both => both.2.symm⟩
  · next none =>
    constructor
    · intro isOk
      cases isOk
    · exact fun both => absurd both.1 none

theorem checkSource_eq_ok {s : Image} {srcX srcY : Int} {bbox : Region.Box}
    (check : checkSource s srcX srcY bbox = .ok ()) :
    srcX + (bbox.x2 - bbox.x1) ≤ s.width ∧ srcY + (bbox.y2 - bbox.y1) ≤ s.height := by
  unfold checkSource at check
  rcases bind_eq_ok.mp check with ⟨right, isRight, check⟩
  rcases bind_eq_ok.mp check with ⟨below, isBelow, check⟩
  have one := (difference_eq_ok.mp isRight).2
  have two := (difference_eq_ok.mp isBelow).2
  split at check
  · cases check
  · omega

section Command

variable {pixman : Pixman} {canvas : Image} {bbox : Region.Box} {destRegion : QRegion} {s : Image} {srcX srcY : Int}
  {rop3 : UInt8} {brush : Pat} {posX posY : Int}

/-- The pattern of a drawing that fits starts inside of its image. -/
theorem patPos_of_fits (fits : Fits pixman canvas bbox destRegion s srcX srcY rop3 brush posX posY) :
    Exists fun pos => patPos bbox posX posY brush = .ok pos ∧ (bbox.x1 < bbox.x2 -> bbox.y1 < bbox.y2 ->
      pos = (brush.wrapH (bbox.x1 - posX), brush.wrapV (bbox.y1 - posY))) := by
  cases brush with
  | color rgb => exact ⟨(0, 0), rfl, fun _ _ => rfl⟩
  | image p wide high =>
      rcases fits.pattern p wide high rfl with ⟨⟨x, y⟩, start⟩
      refine ⟨((bbox.x1 - posX).tmod p.width, (bbox.y1 - posY).tmod p.height), ?_, ?_⟩
      · unfold patPos difference
        rw [if_pos x, if_pos y]
        rfl
      · intro isWide isHigh
        rcases start isWide isHigh with ⟨left, top⟩
        rw [tmod_eq_emod (left.imp_left Int.sub_nonneg_of_le), tmod_eq_emod (top.imp_left Int.sub_nonneg_of_le)]
        rfl

/-- The combined image keeps the depth and the stride, and has the right pixels. -/
theorem doRop3_of_fits (fits : Fits pixman canvas bbox destRegion s srcX srcY rop3 brush posX posY)
    (check : checkSource s srcX srcY bbox = .ok ()) {pos : Int × Int}
    (isPos : bbox.x1 < bbox.x2 -> bbox.y1 < bbox.y2 ->
      pos = (brush.wrapH (bbox.x1 - posX), brush.wrapV (bbox.y1 - posY))) :
    Exists fun formula => handlerOf rop3 = some formula ∧ Exists fun combined =>
      doRop3 rop3 (selfImage pixman canvas bbox) s srcX srcY brush pos.1 pos.2 = .ok combined ∧
      (combined.bpp = canvas.bpp ∧ combined.stride = pixman.stride) ∧
      forall x y, bbox.Has (x, y) -> combined.pixel (x - bbox.x1) (y - bbox.y1) =
        canvas.cut (formula.eval (brush.pixelFor posX posY x y)
          (s.pixel (srcX + (x - bbox.x1)) (srcY + (y - bbox.y1))) (canvas.pixel x y)) := by
  rcases Option.isSome_iff_exists.mp ((handlerOf_isSome_iff rop3).mpr fits.implemented) with ⟨formula, isHandler⟩
  have area := checkSource_eq_ok check
  have handled : forall patH patV, doRop3 rop3 (selfImage pixman canvas bbox) s srcX srcY brush patH patV =
      rows formula s srcX srcY brush patH 0 (selfImage pixman canvas bbox).height patV
        (selfImage pixman canvas bbox) := by
    intro patH patV
    unfold doRop3
    rw [isHandler]
    refine (if_pos fits.depth).trans ?_
    exact if_pos ⟨fits.selfOffsets.2.1, fits.sourceOffsets⟩
  refine ⟨formula, isHandler, ?_⟩
  by_cases some : bbox.x1 < bbox.x2 ∧ bbox.y1 < bbox.y2
  · rcases fits.source some.1 some.2 with ⟨left, top⟩
    have drawn := @rows_ok formula s srcX srcY brush (bbox.x1 - posX) (bbox.y1 - posY)
      (selfImage pixman canvas bbox).height 0 (selfImage pixman canvas bbox) (Nat.zero_add _) (by
        intro column row inColumn inRow
        unfold selfImage at inColumn inRow
        dsimp only at inColumn inRow
        exact ⟨⟨by omega, by omega⟩, by omega, by omega⟩) (by
        intro column row inColumn inRow
        unfold selfImage at inColumn inRow
        dsimp only at inColumn inRow
        have offsets := fits.patternOffsets (bbox.x1 + column) (bbox.y1 + row)
          (by unfold Region.Box.Has; dsimp only; omega)
        rw [add_sub_right_comm, add_sub_right_comm] at offsets
        exact offsets)
    rw [Nat.cast_zero, add_zero] at drawn
    rw [isPos some.1 some.2]
    refine ⟨_, (handled _ _).trans drawn, ⟨rfl, rfl⟩, fun x y has => ?_⟩
    have column : bbox.x1 - posX + (x - bbox.x1) = x - posX := by omega
    have row : bbox.y1 - posY + (y - bbox.y1) = y - posY := by omega
    have value : brush.value (x - posX) (y - posY) = brush.pixelFor posX posY x y := by
      cases brush with
      | color _ => rfl
      | image _ _ _ => rfl
    unfold Region.Box.Has at has
    unfold paint selfImage Image.cut
    dsimp only at has ⊢
    rw [if_pos, column, row, value, add_sub_cancel, add_sub_cancel]
    simp only [Bool.and_eq_true, decide_eq_true_eq]
    omega
  · refine ⟨selfImage pixman canvas bbox, ?_, ⟨rfl, rfl⟩, ?_⟩
    · rw [handled]
      exact rows_empty (by unfold selfImage; dsimp only; omega) (le_refl _)
    · intro x y has
      unfold Region.Box.Has at has
      dsimp only at has
      omega

/-- The offsets at which an image is written back depend on its depth and stride only. -/
theorem blitOffsets_congr (d other : Image) (bpp : d.bpp = other.bpp) (stride : d.stride = other.stride)
    {offsetX offsetY : Int} : BlitOffsets pixman canvas destRegion d offsetX offsetY <->
      BlitOffsets pixman canvas destRegion other offsetX offsetY := by
  unfold BlitOffsets Image.Offsets
  rw [bpp, stride]

/-- The first pixel of the pattern is inside of it, at offsets that are `int`. -/
def Pat.StartsInside (bbox : Region.Box) (posX posY : Int) (brush : Pat) : Prop :=
  forall p wide high, brush = .image p wide high ->
    (IsInt32 (bbox.x1 - posX) ∧ IsInt32 (bbox.y1 - posY)) ∧ (bbox.x1 < bbox.x2 -> bbox.y1 < bbox.y2 ->
      (posX ≤ bbox.x1 ∨ (p.width : Int) ∣ bbox.x1 - posX) ∧ (posY ≤ bbox.y1 ∨ (p.height : Int) ∣ bbox.y1 - posY))

/-- The first pixels of the pattern and of the source were read when the loops came to their end. -/
theorem read_of_handle {formula : Formula} {pos : Int × Int} {combined : Image}
    (isCombined : handle formula (selfImage pixman canvas bbox) s srcX srcY brush pos.1 pos.2 = .ok combined)
    (isWide : bbox.x1 < bbox.x2) (isHigh : bbox.y1 < bbox.y2) :
    Not (forall value, brush.read pos.1 pos.2 ≠ .ok value) ∧ s.Inside srcX srcY := by
  unfold handle at isCombined
  split at isCombined
  case isFalse => cases isCombined
  by_contra outside
  refine rows_error ?_ ?_ ((not_and_or.mp outside).imp_left not_not.mp) combined isCombined
  · unfold selfImage
    dsimp only
    omega
  · unfold selfImage
    dsimp only
    omega

theorem startsInside_of_read {pos : Int × Int} (isPos : patPos bbox posX posY brush = .ok pos)
    (read : bbox.x1 < bbox.x2 -> bbox.y1 < bbox.y2 -> Not (forall value, brush.read pos.1 pos.2 ≠ .ok value)) :
    brush.StartsInside bbox posX posY := by
  rintro p wide high rfl
  unfold patPos at isPos
  rcases bind_eq_ok.mp isPos with ⟨offsetX, isX, isPos⟩
  rcases bind_eq_ok.mp isPos with ⟨offsetY, isY, isPos⟩
  rcases difference_eq_ok.mp isX with ⟨intX, rfl⟩
  rcases difference_eq_ok.mp isY with ⟨intY, rfl⟩
  rcases Except.ok.inj isPos with rfl
  refine ⟨⟨intX, intY⟩, fun isWide isHigh => ?_⟩
  have inside : p.Inside ((bbox.x1 - posX).tmod p.width) ((bbox.y1 - posY).tmod p.height) := by
    by_contra outside
    refine read isWide isHigh fun value isOk => ?_
    unfold Pat.read Image.read at isOk
    dsimp only at isOk
    rw [if_neg outside] at isOk
    split at isOk
    · cases isOk
    · cases isOk
  have left := (tmod_nonneg_iff wide).mp inside.1.1
  have top := (tmod_nonneg_iff high).mp inside.2.1
  exact ⟨left.imp_left Int.le_of_sub_nonneg, top.imp_left Int.le_of_sub_nonneg⟩

/-- The remainders of C are those of the pattern that starts inside. -/
theorem Pat.StartsInside.patPos {pos : Int × Int} (starts : brush.StartsInside bbox posX posY)
    (isPos : patPos bbox posX posY brush = .ok pos) (isWide : bbox.x1 < bbox.x2) (isHigh : bbox.y1 < bbox.y2) :
    pos = (brush.wrapH (bbox.x1 - posX), brush.wrapV (bbox.y1 - posY)) := by
  cases brush with
  | color rgb => exact (Except.ok.inj isPos).symm
  | image p wide high =>
      rcases starts p wide high rfl with ⟨⟨x, y⟩, inside⟩
      rcases inside isWide isHigh with ⟨left, top⟩
      unfold Rop3.patPos difference at isPos
      rw [if_pos x, if_pos y] at isPos
      rw [<- Except.ok.inj isPos, tmod_eq_emod (left.imp_left Int.sub_nonneg_of_le),
        tmod_eq_emod (top.imp_left Int.sub_nonneg_of_le)]
      rfl

/-- The first pixels were read, and the byte offsets of the images are `int`, when the loops came to their end. -/
theorem fits_of_handle {formula : Formula} {pos : Int × Int} {combined : Image}
    (isPos : patPos bbox posX posY brush = .ok pos)
    (isCombined : handle formula (selfImage pixman canvas bbox) s srcX srcY brush pos.1 pos.2 = .ok combined) :
    (bbox.x1 < bbox.x2 -> bbox.y1 < bbox.y2 -> 0 ≤ srcX ∧ 0 ≤ srcY) ∧ brush.StartsInside bbox posX posY ∧
    (forall x y, bbox.Has (x, y) -> brush.Offsets (x - posX) (y - posY)) ∧
    s.Offsets canvas.bpp srcX srcY ∧ combined.bpp = canvas.bpp ∧ combined.stride = pixman.stride := by
  have read := @read_of_handle _ _ _ _ _ _ _ _ _ _ isCombined
  have starts := startsInside_of_read isPos fun isWide isHigh => (read isWide isHigh).1
  unfold handle at isCombined
  split at isCombined
  case isFalse => cases isCombined
  next sized =>
  refine ⟨fun isWide isHigh => ?_, starts, fun x y has => ?_, sized.2, rows_kept isCombined⟩
  · have inside := (read isWide isHigh).2
    exact ⟨inside.1.1, inside.2.1⟩
  · unfold Region.Box.Has at has
    dsimp only at has
    rw [starts.patPos isPos (by omega) (by omega)] at isCombined
    have drawn := @rows_reads formula s srcX srcY brush (bbox.x1 - posX) (bbox.y1 - posY) _ 0 _ combined
      (by rw [Nat.cast_zero, add_zero]; exact isCombined)
    have offsets := drawn (x - bbox.x1).toNat (y - bbox.y1).toNat (by unfold selfImage; dsimp only; omega)
      (Nat.zero_le _) (by unfold selfImage; dsimp only; omega)
    rw [show bbox.x1 - posX + ((x - bbox.x1).toNat : Int) = x - posX by omega,
      show bbox.y1 - posY + ((y - bbox.y1).toNat : Int) = y - posY by omega] at offsets
    exact offsets

end Command

/-- `canvas_draw_rop3` combines the right pixels if and only if the images have one depth, the operation is implemented,
no offset is negative and every byte offset is an `int`. -/
theorem draw_rop3_iff (pixman : Pixman) (canvas : Image) (bbox : Region.Box) (destRegion : QRegion) (s : Image)
    (srcX srcY : Int) (rop3 : UInt8) (brush : Pat) (posX posY : Int) (depth : canvas.bpp = 16 ∨ canvas.bpp = 32)
    (clipped : forall point, point ∈ destRegion.points -> bbox.Has point)
    (check : checkSource s srcX srcY bbox = .ok ()) :
    (Exists fun final => canvasDrawRop3 pixman canvas bbox destRegion s srcX srcY rop3 brush posX posY = .ok final ∧
      Combined canvas bbox destRegion s srcX srcY rop3 brush posX posY final) <->
        Fits pixman canvas bbox destRegion s srcX srcY rop3 brush posX posY := by
  constructor
  · rintro ⟨final, isOk, _⟩
    unfold canvasDrawRop3 at isOk
    rcases bind_eq_ok.mp isOk with ⟨d, isSelf, isOk⟩
    rcases bind_eq_ok.mp isOk with ⟨_, _, isOk⟩
    rcases bind_eq_ok.mp isOk with ⟨pos, isPos, isOk⟩
    rcases bind_eq_ok.mp isOk with ⟨combined, isCombined, isFinal⟩
    rcases ite_eq_ok.mp isSelf with ⟨selfOffsets, rfl⟩
    rcases ite_eq_ok.mp isFinal with ⟨blitOffsets, _⟩
    unfold doRop3 at isCombined
    split at isCombined
    · next sameDepth =>
      split at isCombined
      · cases isCombined
      · next formula isHandler =>
        rcases fits_of_handle isPos isCombined with ⟨source, pattern, patternOffsets, sourceOffsets, bpp, stride⟩
        exact ⟨sameDepth, (handlerOf_isSome_iff rop3).mp (by rw [isHandler]; rfl), source, pattern, selfOffsets,
          sourceOffsets, patternOffsets,
            (blitOffsets_congr combined (selfImage pixman canvas bbox) bpp stride).mp blitOffsets⟩
    · cases isCombined
  · intro fits
    rcases patPos_of_fits fits with ⟨pos, isPos, start⟩
    rcases doRop3_of_fits fits check start with ⟨formula, isHandler, combined, isCombined, ⟨bpp, stride⟩, pixels⟩
    refine ⟨blitted canvas destRegion combined bbox.x1 bbox.y1, ?_, ?_, ?_⟩
    · have isSelf : getImageFromSelf pixman canvas bbox = .ok (selfImage pixman canvas bbox) := if_pos fits.selfOffsets
      unfold canvasDrawRop3
      rw [isSelf, check, isPos]
      change doRop3 rop3 _ s srcX srcY brush pos.1 pos.2 >>= _ = _
      rw [isCombined]
      exact if_pos ((blitOffsets_congr combined (selfImage pixman canvas bbox) bpp stride).mpr fits.blitOffsets)
    · intro x y member place inDepth
      have small : place < 32 := by omega
      rw [pixel_blitted, if_pos member, pixels x y (clipped (x, y) member), Image.cut, BitVec.getLsbD_setWidth,
        BitVec.getLsbD_setWidth, decide_eq_true small, decide_eq_true inDepth, Bool.true_and, Bool.true_and,
        Formula.getLsbD_eval _ _ _ _ small, bit_handlerOf isHandler]
    · intro x y missing
      rw [pixel_blitted, if_neg missing]

/-! ## A pattern of two pixels -/

/-- Every other pixel is white. -/
def checks (width height : Nat) : Image :=
  ⟨32, width, height, 4 * width, fun x y => if (x + y) % 2 = 0 then 0xffffff else 0⟩

def sse2 : Pixman := ⟨12, true⟩

def twoPixels : Pat := .image (checks 2 1) (by decide) (by decide)

theorem twoColumns_canonical : Canonical ⟨1, 0, 3, 2⟩ none := ⟨by decide, by decide⟩

def twoColumns : QRegion := ⟨⟨1, 0, 3, 2⟩, none, twoColumns_canonical⟩

theorem twoColumns_clipped (point : Int × Int) (member : point ∈ twoColumns.points) :
    Region.Box.Has ⟨0, 0, 3, 2⟩ point := by
  have has := (QRegion.points_rectangle rfl point).mp member
  unfold Region.Box.Has at has ⊢
  dsimp only [twoColumns] at has ⊢
  omega

theorem checks_source : checkSource (checks 3 2) 0 0 ⟨0, 0, 3, 2⟩ = .ok () := by decide +kernel

/-- The pattern starts with its second pixel and is wrapped around twice in a line. -/
theorem draw_rop3_wrapped : Exists fun final =>
    canvasDrawRop3 sse2 (checks 3 2) ⟨0, 0, 3, 2⟩ twoColumns (checks 3 2) 0 0 0x01 twoPixels (-1) 0 = .ok final ∧
      Combined (checks 3 2) ⟨0, 0, 3, 2⟩ twoColumns (checks 3 2) 0 0 0x01 twoPixels (-1) 0 final := by
  refine (draw_rop3_iff sse2 (checks 3 2) ⟨0, 0, 3, 2⟩ twoColumns (checks 3 2) 0 0 0x01 twoPixels (-1) 0
    (Or.inr rfl) twoColumns_clipped checks_source).mpr ?_
  constructor
  case depth => exact ⟨rfl, rfl⟩
  case implemented => decide +kernel
  case source => exact fun _ _ => ⟨le_refl _, le_refl _⟩
  case pattern =>
    rintro p wide high same
    exact ⟨⟨⟨by decide, by decide⟩, by decide, by decide⟩, fun _ _ => ⟨Or.inl (by decide), Or.inl (le_refl _)⟩⟩
  case selfOffsets => decide +kernel
  case sourceOffsets => decide +kernel
  case patternOffsets =>
    intro x y has
    unfold twoPixels Pat.Offsets Image.Offsets checks IsInt32
    dsimp only
    omega
  case blitOffsets => exact fun isFalse => absurd isFalse (by decide)

/-- A pattern that starts one pixel to the right is read to the left of its first pixel. -/
theorem negative_offset_outside :
    ((checks 3 2).bpp = 16 ∨ (checks 3 2).bpp = 32) ∧
      (forall point, point ∈ twoColumns.points -> Region.Box.Has ⟨0, 0, 3, 2⟩ point) ∧
      checkSource (checks 3 2) 0 0 ⟨0, 0, 3, 2⟩ = .ok () ∧ NeedsAll 0x01 ∧ ¬ Exists fun final =>
        canvasDrawRop3 sse2 (checks 3 2) ⟨0, 0, 3, 2⟩ twoColumns (checks 3 2) 0 0 0x01 twoPixels 1 0 = .ok final ∧
          Combined (checks 3 2) ⟨0, 0, 3, 2⟩ twoColumns (checks 3 2) 0 0 0x01 twoPixels 1 0 final := by
  refine ⟨Or.inr rfl, twoColumns_clipped, checks_source, by decide +kernel, ?_⟩
  rintro ⟨final, isOk, _⟩
  have ended :
      (canvasDrawRop3 sse2 (checks 3 2) ⟨0, 0, 3, 2⟩ twoColumns (checks 3 2) 0 0 0x01 twoPixels 1 0).toOption.isSome =
      false := by
    decide +kernel
  rw [isOk] at ended
  cases ended

end Rop3
end Canvas
end Spice
