import Spice.Glz.DecoderWindow
import Spice.Lz.Bounds

namespace Spice
namespace Glz
namespace Bounds

open Lib
open Lz.Bounds (readLen readLen_shorter)

/-!
# The accesses of the GLZ decoder

`decode-glz-tmpl.c` of the client, for every instantiation and for any bytes.  The input is
read without a check, so a byte after its end is `outside`, and so is a pixel of another
image that the image does not have.  A `g_return_val_if_fail` that fails aborts the
decoding.  The length of a match is computed in 32 bits and may wrap; pixel offsets and
image distances have at most 30.
-/

/-- The instantiations of the template in `decode-glz.c`. -/
inductive Variant
  | plt
  | plt8ToRgb32
  | plt4BEToRgb32
  | plt4LEToRgb32
  | plt1BEToRgb32
  | plt1LEToRgb32
  | rgb16
  | rgb16ToRgb32
  | rgb24
  | rgb32
  | rgbAlpha
deriving DecidableEq, Repr

namespace Variant

/-- What is added to the length of a match. -/
def lenFix : Variant -> UInt32
  | rgb16 | rgb16ToRgb32 => 1
  | rgb24 | rgb32 => 0
  | _ => 2

/-- The pixels that one unit of the compression stands for. -/
def pixels : Variant -> Nat
  | plt4BEToRgb32 | plt4LEToRgb32 => 2
  | plt1BEToRgb32 | plt1LEToRgb32 => 8
  | _ => 1

/-- The bytes that `COPY_COMP_PIXEL` takes. -/
def bytes : Variant -> Nat
  | rgb16 | rgb16ToRgb32 => 2
  | rgb24 | rgb32 => 3
  | _ => 1

/-- Whether pixels are looked up in the palette. -/
def needsPalette : Variant -> Bool
  | plt8ToRgb32 | plt4BEToRgb32 | plt4LEToRgb32 | plt1BEToRgb32 | plt1LEToRgb32 => true
  | _ => false

/-- Whether an index into the palette is taken modulo `num_ents`. -/
def divides : Variant -> Bool
  | plt4BEToRgb32 | plt4LEToRgb32 => true
  | _ => false

theorem pixels_bound (variant : Variant) : variant.pixels = 1 ∨ variant.pixels = 2 ∨ variant.pixels = 8 := by
  cases variant <;> decide

theorem pixels_of_divides (variant : Variant) (divides : variant.divides = true) : variant.pixels = 2 := by
  cases variant <;> first | rfl | cases divides

end Variant

/-! ## References -/

/-- A reference with the biases fixed and in pixels. -/
structure Reference where
  len : UInt32
  pixelOfs : Nat
  imageDist : Nat
deriving DecidableEq, Repr

/-- The loop over the bytes of an image distance. -/
def readDist : Nat -> Nat -> Nat -> List UInt8 -> Option (Nat × List UInt8)
  | 0, _, dist, input => some (dist, input)
  | _ + 1, _, _, [] => none
  | count + 1, shift, dist, code :: rest => readDist count (shift + 8) (dist + code.toNat * 2 ^ shift) rest

/-- The pixel offset and the image distance, after the bits of the offset in the control byte and in the next one. -/
def readPlace (long : Bool) (pixelOfs : Nat) : List UInt8 -> Option (Nat × Nat × List UInt8)
  | [] => none
  | code :: rest =>
      let imageFlag := code.toNat / 64
      if long then
        (readDist imageFlag 0 0 rest).bind (fun (dist, rest) =>
          let pixelOfs := pixelOfs + code.toNat % 32 * 2 ^ 12
          if code.toNat / 32 % 2 = 1 then
            match rest with
            | [] => none
            | code :: rest => some (pixelOfs + code.toNat * 2 ^ 17, dist, rest)
          else some (pixelOfs, dist, rest))
      else (readDist imageFlag 6 (code.toNat % 64) rest).map (fun (dist, rest) => (pixelOfs, dist, rest))

section Decode

variable (variant : Variant)

/-- The bias of an offset inside of the same image, and the casts. -/
def fixReference (len : UInt32) (pixelOfs imageDist : Nat) : Reference where
  len := (len + variant.lenFix) * UInt32.ofNat variant.pixels
  pixelOfs := (if imageDist = 0 then pixelOfs + 1 else pixelOfs) * variant.pixels
  imageDist := imageDist

/-- The length in the control byte, and the bytes after it if it is long. -/
def readLength (ctrl : UInt8) (input : List UInt8) : Option (UInt32 × List UInt8) :=
  let len := (ctrl >>> 5).toUInt32
  if len = 7 then readLen len input else some (len, input)

def readReference (ctrl : UInt8) (input : List UInt8) : Option (Reference × List UInt8) :=
  (readLength ctrl input).bind (fun (len, input) =>
    match input with
    | [] => none
    | code :: rest =>
        (readPlace (decide (ctrl.toNat / 16 % 2 = 1)) (ctrl.toNat % 16 + code.toNat * 16) rest).map
          (fun (pixelOfs, imageDist, rest) => (fixReference variant len pixelOfs imageDist, rest)))

/-- The image that `glz_decoder_window_bits` gives pixels of; `none` is `NULL`. -/
def refImage (window : SpiceGlzDecoderWindow) (id dist offset : Nat) : Option GlzImage :=
  let ref := (id + 2 ^ 64 - dist) % 2 ^ 64
  match window.images (ref % window.nimages) with
  | none => none
  | some img => if img.hdr.id = ref ∧ offset ≤ img.hdr.grossPixels then some img else none

theorem glzDecoderWindowBits_eq (window : SpiceGlzDecoderWindow) (id dist offset : Nat) :
    window.glzDecoderWindowBits id dist offset =
      (refImage window id dist offset).map (fun img => img.data.drop offset) := by
  unfold SpiceGlzDecoderWindow.glzDecoderWindowBits refImage
  dsimp only
  cases window.images ((id + 2 ^ 64 - dist) % 2 ^ 64 % window.nimages) with
  | none => rfl
  | some img =>
      dsimp only
      split
      · rfl
      · rfl

/-! ## Decoding -/

/-- The only other memory that a trace shows is the palette, as far as an index is taken modulo its entries. -/
abbrev Trace := List (Access Unit)

structure State where
  input : List UInt8
  op : Nat
  trace : Trace
deriving DecidableEq

inductive Stop
  | aborted (trace : Trace)
  | outside (trace : Trace)
deriving DecidableEq

/-- Copy pixels of another image. -/
def fetchRun (size : Int) (img : GlzImage) : Nat -> Nat -> Nat -> Trace -> Except Stop Trace
  | 0, _, _, trace => .ok trace
  | count + 1, place, op, trace =>
      if place < img.hdr.grossPixels then
        match writeChecked size op trace with
        | .error trace => .error (.aborted trace)
        | .ok trace => fetchRun size img count (place + 1) (op + 1) trace
      else .error (.outside trace)

/-- The decoder with its output: the size, the id of the image, whether there is a palette, and what the window holds in
each round, since decoding waits for images of other channels. -/
structure Target where
  size : Int
  id : Nat
  palette : Bool
  window : Nat -> SpiceGlzDecoderWindow

variable (target : Target)

/-- Copy a reference inside of the image. -/
def copyOwn (ref : Reference) (state : State) : Except Stop State :=
  let place : Int := state.op - ref.pixelOfs
  if ¬ place + ref.len.toNat ≤ target.size then .error (.aborted state.trace)
  else if ¬ 0 ≤ place then .error (.aborted state.trace)
  else if ¬ (state.op : Int) + ref.len.toNat ≤ target.size then .error (.aborted state.trace)
  else
    let copied :=
      if place = (state.op : Int) - 1 then writeRun target.size ref.len.toNat state.op (.read place :: state.trace)
      else copyRun target.size ref.len.toNat place state.op state.trace
    match copied with
    | .error trace => .error (.aborted trace)
    | .ok trace => .ok { state with op := state.op + ref.len.toNat, trace := trace }

/-- Copy a reference to another image. -/
def copyOther (round : Nat) (ref : Reference) (state : State) : Except Stop State :=
  match refImage (target.window round) target.id ref.imageDist ref.pixelOfs with
  | none => .error (.aborted state.trace)
  | some img =>
      if ¬ (state.op : Int) + ref.len.toNat ≤ target.size then .error (.aborted state.trace)
      else
        match fetchRun target.size img ref.len.toNat ref.pixelOfs state.op state.trace with
        | .error stop => .error stop
        | .ok trace => .ok { state with op := state.op + ref.len.toNat, trace := trace }

/-- `COPY_COMP_PIXEL`, with the check for the palette before it and the one for `op` after it. -/
def copyCompPixel (state : State) : Except Stop State :=
  if variant.needsPalette && !target.palette then .error (.aborted state.trace)
  else if state.input.length < variant.bytes then .error (.outside state.trace)
  else
    let looked := if variant.divides then .fetch () (state.input.headD 0).toNat :: state.trace else state.trace
    let trace := writeAll variant.pixels state.op looked
    if ((state.op + variant.pixels : Nat) : Int) ≤ target.size then
      .ok { input := state.input.drop variant.bytes, op := state.op + variant.pixels, trace := trace }
    else .error (.aborted trace)

/-- The loop over the pixels of a literal run. -/
def copyCompPixels : Nat -> State -> Except Stop State
  | 0, state => .ok state
  | count + 1, state =>
      match copyCompPixel variant target state with
      | .error stop => .error stop
      | .ok state => copyCompPixels count state

/-- What the control byte asks for. -/
def decodeRound (round : Nat) (ctrl : UInt8) (state : State) : Except Stop State :=
  if 32 ≤ ctrl then
    match readReference variant ctrl state.input with
    | none => .error (.outside state.trace)
    | some (ref, rest) =>
        if ref.imageDist = 0 then copyOwn target ref { state with input := rest }
        else copyOther target round ref { state with input := rest }
  else if ¬ (state.op : Int) + variant.pixels * (ctrl.toNat + 1) ≤ target.size then .error (.aborted state.trace)
  else copyCompPixels variant target (ctrl.toNat + 1) state

/-- How decoding ends; it is `unfinished` when it was given too few rounds. -/
inductive Result
  | aborted (trace : Trace)
  | returned (outSize : Nat) (rest : List UInt8) (trace : Trace)
  | outside (trace : Trace)
  | unfinished
deriving DecidableEq

/-- The loop of `decode`; the rounds that are left number the contents of the window. -/
def decodeLoop : Nat -> UInt8 -> State -> Result
  | 0, _, _ => .unfinished
  | rounds + 1, ctrl, state =>
      match decodeRound variant target rounds ctrl state with
      | .error (.aborted trace) => .aborted trace
      | .error (.outside trace) => .outside trace
      | .ok state =>
          if (state.op : Int) < target.size then
            match state.input with
            | [] => .outside state.trace
            | ctrl :: rest => decodeLoop rounds ctrl { state with input := rest }
          else .returned state.op state.input state.trace

/-- `decode`.  Every round takes a byte of the input. -/
def decode (input : List UInt8) : Result :=
  match input with
  | [] => .outside []
  | ctrl :: rest => decodeLoop variant target input.length ctrl { input := rest, op := 0, trace := [] }

end Decode

/-! ## Streams that stay inside -/

section Streams

variable (variant : Variant) (target : Target)

/-- Whether the checks let a reference pass. -/
def Accepted (round : Nat) (ref : Reference) (op : Nat) : Prop :=
  (op : Int) + ref.len.toNat ≤ target.size ∧
    if ref.imageDist = 0 then (op : Int) - ref.pixelOfs + ref.len.toNat ≤ target.size ∧ 0 ≤ (op : Int) - ref.pixelOfs
    else (refImage (target.window round) target.id ref.imageDist ref.pixelOfs).isSome = true

/-- Whether the checks let a literal run pass. -/
def RunAccepted (ctrl : UInt8) (op : Nat) : Prop :=
  (op : Int) + variant.pixels * (ctrl.toNat + 1) ≤ target.size ∧ (variant.needsPalette && !target.palette) = false

instance (round : Nat) (ref : Reference) (op : Nat) : Decidable (Accepted target round ref op) :=
  inferInstanceAs (Decidable (_ ∧ _))

instance (ctrl : UInt8) (op : Nat) : Decidable (RunAccepted variant target ctrl op) :=
  inferInstanceAs (Decidable (_ ∧ _))

/-- One round: a reference is all inside of the input, and one to another image that is accepted is all inside of that
image; a literal run that is accepted is all inside of the input. -/
def RoundFits (round : Nat) (ctrl : UInt8) (op : Nat) (input : List UInt8) : Prop :=
  if 32 ≤ ctrl then
    Exists fun ref => Exists fun rest => readReference variant ctrl input = some (ref, rest) ∧
      (ref.imageDist ≠ 0 -> (op : Int) + ref.len.toNat ≤ target.size -> forall img,
        refImage (target.window round) target.id ref.imageDist ref.pixelOfs = some img ->
        ref.len.toNat = 0 ∨ ref.pixelOfs + ref.len.toNat ≤ img.hdr.grossPixels)
  else RunAccepted variant target ctrl op -> variant.bytes * (ctrl.toNat + 1) ≤ input.length

/-- Where a round that is accepted leads to. -/
def advance (round : Nat) (ctrl : UInt8) (op : Nat) (input : List UInt8) : Option (Nat × List UInt8) :=
  if 32 ≤ ctrl then
    (readReference variant ctrl input).bind (fun (ref, rest) =>
      if Accepted target round ref op then some (op + ref.len.toNat, rest) else none)
  else if RunAccepted variant target ctrl op then
    some (op + variant.pixels * (ctrl.toNat + 1), input.drop (variant.bytes * (ctrl.toNat + 1)))
  else none

/-- All rounds up to the first that is not accepted, or to the end of the image. -/
def RoundsFit : Nat -> UInt8 -> Nat -> List UInt8 -> Prop
  | 0, _, _, _ => True
  | rounds + 1, ctrl, op, input =>
      RoundFits variant target rounds ctrl op input ∧
        forall next rest, advance variant target rounds ctrl op input = some (next, rest) ->
          (next : Int) < target.size ->
          Exists fun ctrl => Exists fun after => rest = ctrl :: after ∧ RoundsFit rounds ctrl next after

def StreamFits (input : List UInt8) : Prop :=
  Exists fun ctrl => Exists fun rest => input = ctrl :: rest ∧ RoundsFit variant target input.length ctrl 0 rest

end Streams

/-! ## Every access is contained -/

section Containment

variable {holds : Unit -> Nat -> Prop} {variant : Variant} {target : Target} {state : State}

/-- A run of another image stays in the surface. -/
theorem fetchRun_ok {size : Int} {img : GlzImage} {count place op : Nat} {trace : Trace}
    (filled : Filled holds size op trace)
    (room : ((op + count : Nat) : Int) ≤ size) (fits : count = 0 ∨ place + count ≤ img.hdr.grossPixels) :
    Exists fun next => fetchRun size img count place op trace = .ok next ∧ Filled holds size (op + count) next := by
  induction count generalizing place op trace with
  | zero => exact ⟨trace, rfl, filled⟩
  | succ count ih =>
      have inside : place < img.hdr.grossPixels := by omega
      have restFits : count = 0 ∨ place + 1 + count ≤ img.hdr.grossPixels := by omega
      rcases ih (filled.write (by omega)) (by omega) restFits with ⟨next, ran, isFilled⟩
      rw [Nat.add_right_comm, Nat.add_assoc] at isFilled
      refine ⟨next, ?_, isFilled⟩
      unfold fetchRun writeChecked
      rw [if_pos inside, if_pos (by omega)]
      exact ran

theorem fetchRun_outside {size : Int} {img : GlzImage} {count place op : Nat} {trace : Trace}
    (filled : Filled holds size op trace)
    (room : ((op + count : Nat) : Int) ≤ size) (some_pixels : 0 < count) (past : img.hdr.grossPixels < place + count) :
    Exists fun next => fetchRun size img count place op trace = .error (.outside next) ∧ Contained holds size next := by
  induction count generalizing place op trace with
  | zero => cases some_pixels
  | succ count ih =>
      unfold fetchRun writeChecked
      by_cases inside : place < img.hdr.grossPixels
      · rw [if_pos inside, if_pos (by omega)]
        have more : 0 < count := by omega
        exact ih (filled.write (by omega)) (by omega) more (by omega)
      · rw [if_neg inside]
        exact ⟨trace, rfl, filled.contained⟩

/-- A pixel stays in the surface. -/
theorem copyCompPixel_ok (lookups : variant.divides = true -> 2 ≤ target.size -> forall byte, holds () byte)
    (filled : Filled holds target.size state.op state.trace)
    (palette : (variant.needsPalette && !target.palette) = false)
    (room : ((state.op + variant.pixels : Nat) : Int) ≤ target.size) (enough : variant.bytes ≤ state.input.length) :
    Exists fun trace => copyCompPixel variant target state =
        .ok { input := state.input.drop variant.bytes, op := state.op + variant.pixels, trace := trace } ∧
      Filled holds target.size (state.op + variant.pixels) trace := by
  have looked : Filled holds target.size state.op
      (if variant.divides then .fetch () (state.input.headD 0).toNat :: state.trace else state.trace) := by
    split
    · rename_i divides
      have two := variant.pixels_of_divides divides
      exact filled.fetch (lookups divides (by omega) _)
    · exact filled
  refine ⟨_, ?_, looked.writeAll room⟩
  unfold copyCompPixel
  rw [if_neg (by rw [palette]; decide), if_neg (Nat.not_lt_of_le enough)]
  dsimp only
  rw [if_pos room]

/-- Pixels for which there is room stay in it. -/
theorem copyCompPixels_ok (lookups : variant.divides = true -> 2 ≤ target.size -> forall byte, holds () byte)
    {count : Nat}
    (filled : Filled holds target.size state.op state.trace)
    (palette : (variant.needsPalette && !target.palette) = false)
    (room : ((state.op + variant.pixels * count : Nat) : Int) ≤ target.size)
    (enough : variant.bytes * count ≤ state.input.length) :
    Exists fun trace => copyCompPixels variant target count state =
        .ok {
          input := state.input.drop (variant.bytes * count)
          op := state.op + variant.pixels * count
          trace := trace } ∧
      Filled holds target.size (state.op + variant.pixels * count) trace := by
  induction count generalizing state with
  | zero => exact ⟨state.trace, rfl, filled⟩
  | succ count ih =>
      have morePixels : variant.pixels * (count + 1) = variant.pixels + variant.pixels * count := by
        rw [Nat.mul_succ, Nat.add_comm]
      have moreBytes : variant.bytes * (count + 1) = variant.bytes + variant.bytes * count := by
        rw [Nat.mul_succ, Nat.add_comm]
      rcases copyCompPixel_ok lookups filled palette (by omega) (by omega) with ⟨trace, one, written⟩
      unfold copyCompPixels
      rw [one]
      dsimp only
      rcases @ih ⟨state.input.drop variant.bytes, state.op + variant.pixels, trace⟩ written (by dsimp only; omega)
        (by rw [List.length_drop]; omega) with ⟨last, ran, isFilled⟩
      dsimp only at ran isFilled
      rw [List.drop_drop, Nat.add_assoc, <- moreBytes, <- morePixels] at ran
      rw [Nat.add_assoc, <- morePixels] at isFilled
      exact ⟨last, ran, isFilled⟩

/-- Pixels for which there is no room leave it. -/
theorem copyCompPixels_outside (lookups : variant.divides = true -> 2 ≤ target.size -> forall byte, holds () byte)
    {count : Nat}
    (filled : Filled holds target.size state.op state.trace)
    (palette : (variant.needsPalette && !target.palette) = false)
    (room : ((state.op + variant.pixels * count : Nat) : Int) ≤ target.size)
    (short : state.input.length < variant.bytes * count) :
    Exists fun trace => copyCompPixels variant target count state = .error (.outside trace) ∧
      Contained holds target.size trace := by
  induction count generalizing state with
  | zero => cases short
  | succ count ih =>
      have morePixels : variant.pixels * (count + 1) = variant.pixels + variant.pixels * count := by
        rw [Nat.mul_succ, Nat.add_comm]
      have moreBytes : variant.bytes * (count + 1) = variant.bytes + variant.bytes * count := by
        rw [Nat.mul_succ, Nat.add_comm]
      by_cases first : state.input.length < variant.bytes
      · refine ⟨state.trace, ?_, filled.contained⟩
        unfold copyCompPixels copyCompPixel
        rw [if_neg (by rw [palette]; decide), if_pos first]
      · rcases copyCompPixel_ok lookups filled palette (by omega) (Nat.le_of_not_lt first) with ⟨trace, one, written⟩
        unfold copyCompPixels
        rw [one]
        refine @ih ⟨state.input.drop variant.bytes, state.op + variant.pixels, trace⟩ written (by dsimp only; omega) ?_
        rw [List.length_drop]
        omega

theorem readDist_shorter {count shift dist next : Nat} {input rest : List UInt8}
    (read : readDist count shift dist input = some (next, rest)) : rest.length ≤ input.length := by
  induction count generalizing shift dist input with
  | zero =>
      cases read
      exact Nat.le_refl _
  | succ count ih =>
      cases input with
      | nil => cases read
      | cons code input => exact Nat.le_succ_of_le (ih read)

/-- Reading a place takes bytes off the input. -/
theorem readPlace_shorter {long : Bool} {pixelOfs ofs dist : Nat} {input rest : List UInt8}
    (read : readPlace long pixelOfs input = some (ofs, dist, rest)) : rest.length ≤ input.length := by
  cases input with
  | nil => cases read
  | cons code input =>
      dsimp only [readPlace] at read
      rw [List.length_cons]
      split at read
      · rcases Option.bind_eq_some_iff.mp read with ⟨⟨middleDist, middle⟩, isDist, last⟩
        have shorter := readDist_shorter isDist
        dsimp only at last
        split at last
        · split at last
          · cases last
          · rw [Option.some.injEq, Prod.mk.injEq, Prod.mk.injEq] at last
            rw [<- last.2.2]
            rw [List.length_cons] at shorter
            omega
        · rw [Option.some.injEq, Prod.mk.injEq, Prod.mk.injEq] at last
          rw [<- last.2.2]
          omega
      · rcases Option.map_eq_some_iff.mp read with ⟨⟨middleDist, middle⟩, isDist, same⟩
        cases same
        exact Nat.le_succ_of_le (readDist_shorter isDist)

theorem readReference_shorter {ctrl : UInt8} {ref : Reference} {input rest : List UInt8}
    (read : readReference variant ctrl input = some (ref, rest)) : rest.length ≤ input.length := by
  rcases Option.bind_eq_some_iff.mp read with ⟨⟨len, middle⟩, isLen, last⟩
  have first : middle.length ≤ input.length := by
    dsimp only [readLength] at isLen
    split at isLen
    · exact readLen_shorter isLen
    · cases isLen
      exact Nat.le_refl _
  dsimp only at last
  split at last
  · cases last
  · rcases Option.map_eq_some_iff.mp last with ⟨⟨ofs, dist, after⟩, isPlace, same⟩
    cases same
    have shorter : after.length ≤ _ := readPlace_shorter isPlace
    rw [List.length_cons] at first
    exact Nat.le_trans shorter (Nat.le_of_succ_le first)

/-- A reference into the own image goes back. -/
theorem readReference_pixelOfs {ctrl : UInt8} {ref : Reference} {input rest : List UInt8}
    (read : readReference variant ctrl input = some (ref, rest)) (own : ref.imageDist = 0) : 0 < ref.pixelOfs := by
  rcases Option.bind_eq_some_iff.mp read with ⟨⟨len, middle⟩, _, last⟩
  dsimp only at last
  split at last
  · cases last
  · rcases Option.map_eq_some_iff.mp last with ⟨⟨ofs, dist, after⟩, _, same⟩
    cases same
    have isOwn : dist = 0 := own
    show 0 < (if dist = 0 then ofs + 1 else ofs) * variant.pixels
    rw [if_pos isOwn]
    rcases variant.pixels_bound with bound | bound | bound
    · rw [bound]
      omega
    · rw [bound]
      omega
    · rw [bound]
      omega

/-- What a round does, with what it needs of the stream. -/
def RoundSound (holds : Unit -> Nat -> Prop) (variant : Variant) (target : Target) (round : Nat) (ctrl : UInt8)
    (state : State) :
    Except Stop State -> Prop
  | .error (.aborted trace) =>
      Contained holds target.size trace ∧ RoundFits variant target round ctrl state.op state.input ∧
      advance variant target round ctrl state.op state.input = none
  | .error (.outside trace) =>
      Contained holds target.size trace ∧ ¬ RoundFits variant target round ctrl state.op state.input
  | .ok next => Filled holds target.size next.op next.trace ∧ (next.op : Int) ≤ target.size ∧
      next.input.length ≤ state.input.length ∧ RoundFits variant target round ctrl state.op state.input ∧
      advance variant target round ctrl state.op state.input = some (next.op, next.input)

/-- A match in the own image is contained exactly if it fits. -/
theorem copyOwn_sound (filled : Filled holds target.size state.op state.trace) {ref : Reference} (rest : List UInt8)
    (positive : 0 < ref.pixelOfs) (round : Nat) (own : ref.imageDist = 0) :
    match copyOwn target ref { state with input := rest } with
    | .error (.aborted trace) => Contained holds target.size trace ∧ ¬ Accepted target round ref state.op
    | .error (.outside _) => False
    | .ok next => Filled holds target.size next.op next.trace ∧ (next.op : Int) ≤ target.size ∧ next.input = rest ∧
        next.op = state.op + ref.len.toNat ∧ Accepted target round ref state.op := by
  unfold copyOwn Accepted
  rw [if_pos own]
  dsimp only
  by_cases refFits : (state.op : Int) - ref.pixelOfs + ref.len.toNat ≤ target.size
  · rw [if_neg (not_not.mpr refFits)]
    by_cases start : 0 ≤ (state.op : Int) - ref.pixelOfs
    · rw [if_neg (not_not.mpr start)]
      by_cases fits : (state.op : Int) + ref.len.toNat ≤ target.size
      · rw [if_neg (not_not.mpr fits)]
        have inside : ((state.op + ref.len.toNat : Nat) : Int) ≤ target.size := by omega
        by_cases isRun : (state.op : Int) - ref.pixelOfs = (state.op : Int) - 1
        · rw [if_pos isRun]
          rcases (filled.read start (by omega)).writeRun inside with ⟨next, ran, isFilled⟩
          rw [ran]
          exact ⟨isFilled, inside, rfl, rfl, fits, refFits, start⟩
        · rw [if_neg isRun]
          rcases filled.copyRun start (by omega) inside with ⟨next, ran, isFilled⟩
          rw [ran]
          exact ⟨isFilled, inside, rfl, rfl, fits, refFits, start⟩
      · rw [if_pos fits]
        exact ⟨filled.contained, fun accepted => fits accepted.1⟩
    · rw [if_pos start]
      exact ⟨filled.contained, fun accepted => start accepted.2.2⟩
  · rw [if_pos refFits]
    exact ⟨filled.contained, fun accepted => refFits accepted.2.1⟩

/-- A match in another image is contained exactly if it fits. -/
theorem copyOther_sound (filled : Filled holds target.size state.op state.trace) {ref : Reference} (rest : List UInt8)
    (round : Nat) (other : ref.imageDist ≠ 0) :
    match copyOther target round ref { state with input := rest } with
    | .error (.aborted trace) => Contained holds target.size trace ∧ ¬ Accepted target round ref state.op
    | .error (.outside trace) => Contained holds target.size trace ∧ Exists fun img =>
        refImage (target.window round) target.id ref.imageDist ref.pixelOfs = some img ∧
        (state.op : Int) + ref.len.toNat ≤ target.size ∧ 0 < ref.len.toNat ∧
        img.hdr.grossPixels < ref.pixelOfs + ref.len.toNat
    | .ok next => Filled holds target.size next.op next.trace ∧ (next.op : Int) ≤ target.size ∧ next.input = rest ∧
        next.op = state.op + ref.len.toNat ∧ Accepted target round ref state.op ∧
        forall img, refImage (target.window round) target.id ref.imageDist ref.pixelOfs = some img ->
          ref.len.toNat = 0 ∨ ref.pixelOfs + ref.len.toNat ≤ img.hdr.grossPixels := by
  unfold copyOther Accepted
  rw [if_neg other]
  cases isImage : refImage (target.window round) target.id ref.imageDist ref.pixelOfs with
  | none => exact ⟨filled.contained, fun accepted => by cases accepted.2⟩
  | some img =>
      dsimp only
      by_cases fits : (state.op : Int) + ref.len.toNat ≤ target.size
      · rw [if_neg (not_not.mpr fits)]
        have inside : ((state.op + ref.len.toNat : Nat) : Int) ≤ target.size := by omega
        by_cases held : ref.len.toNat = 0 ∨ ref.pixelOfs + ref.len.toNat ≤ img.hdr.grossPixels
        · rcases fetchRun_ok filled inside held with ⟨next, ran, isFilled⟩
          rw [ran]
          refine ⟨isFilled, inside, rfl, rfl, ⟨fits, rfl⟩, fun same isSame => ?_⟩
          cases isSame
          exact held
        · have positive : 0 < ref.len.toNat := by omega
          have past : img.hdr.grossPixels < ref.pixelOfs + ref.len.toNat := by omega
          rcases fetchRun_outside filled inside positive past with ⟨next, ran, contained⟩
          rw [ran]
          exact ⟨contained, img, rfl, fits, positive, past⟩
      · rw [if_pos fits]
        exact ⟨filled.contained, fun accepted => fits accepted.1⟩

/-- Every round of the decoder is contained exactly if it fits. -/
theorem decodeRound_sound (lookups : variant.divides = true -> 2 ≤ target.size -> forall byte, holds () byte)
    (round : Nat) (ctrl : UInt8)
    (filled : Filled holds target.size state.op state.trace) :
    RoundSound holds variant target round ctrl state (decodeRound variant target round ctrl state) := by
  unfold decodeRound
  by_cases isMatch : 32 ≤ ctrl
  · rw [if_pos isMatch]
    cases read : readReference variant ctrl state.input with
    | none =>
        unfold RoundSound RoundFits
        rw [if_pos isMatch, read]
        refine ⟨filled.contained, ?_⟩
        rintro ⟨ref, rest, impossible, _⟩
        cases impossible
    | some token =>
        rcases token with ⟨ref, rest⟩
        have shorter := readReference_shorter read
        have advances : advance variant target round ctrl state.op state.input =
            if Accepted target round ref state.op then some (state.op + ref.len.toNat, rest) else none := by
          unfold advance
          rw [if_pos isMatch, read]
          rfl
        dsimp only
        by_cases own : ref.imageDist = 0
        · rw [if_pos own]
          have copied := copyOwn_sound filled rest (readReference_pixelOfs read own) round own
          have fits : RoundFits variant target round ctrl state.op state.input := by
            unfold RoundFits
            rw [if_pos isMatch]
            exact ⟨ref, rest, read, fun other => absurd own other⟩
          cases outcome : copyOwn target ref { state with input := rest } with
          | error stop =>
              rw [outcome] at copied
              cases stop with
              | aborted trace => exact ⟨copied.1, fits, advances.trans (if_neg copied.2)⟩
              | outside trace => exact copied.elim
          | ok next =>
              rw [outcome] at copied
              rcases copied with ⟨nextFilled, inside, isRest, isOp, accepted⟩
              refine ⟨nextFilled, inside, ?_, fits, advances.trans ?_⟩
              · rw [isRest]
                exact shorter
              · rw [if_pos accepted, isOp, isRest]
        · rw [if_neg own]
          have copied := copyOther_sound filled rest round own
          cases outcome : copyOther target round ref { state with input := rest } with
          | error stop =>
              rw [outcome] at copied
              cases stop with
              | aborted trace =>
                  refine ⟨copied.1, ?_, advances.trans (if_neg copied.2)⟩
                  unfold RoundFits
                  rw [if_pos isMatch]
                  refine ⟨ref, rest, read, fun _ room img isImage => ?_⟩
                  refine absurd ⟨room, ?_⟩ copied.2
                  rw [if_neg own, isImage]
                  rfl
              | outside trace =>
                  rcases copied with ⟨contained, img, isImage, room, some_pixels, past⟩
                  unfold RoundSound RoundFits
                  rw [if_pos isMatch]
                  refine ⟨contained, ?_⟩
                  rintro ⟨other, after, isOther, fits⟩
                  rw [read, Option.some.injEq, Prod.mk.injEq] at isOther
                  rw [<- isOther.1] at fits
                  have held := fits own room img isImage
                  omega
          | ok next =>
              rw [outcome] at copied
              rcases copied with ⟨nextFilled, inside, isRest, isOp, accepted, held⟩
              refine ⟨nextFilled, inside, ?_, ?_, advances.trans ?_⟩
              · rw [isRest]
                exact shorter
              · unfold RoundFits
                rw [if_pos isMatch]
                exact ⟨ref, rest, read, fun _ _ => held⟩
              · rw [if_pos accepted, isOp, isRest]
  · rw [if_neg isMatch]
    by_cases fits : (state.op : Int) + variant.pixels * (ctrl.toNat + 1) ≤ target.size
    · rw [if_neg (not_not.mpr fits)]
      have room : ((state.op + variant.pixels * (ctrl.toNat + 1) : Nat) : Int) ≤ target.size := by
        push_cast
        exact fits
      cases palette : variant.needsPalette && !target.palette with
      | true =>
          have refused : ¬ RunAccepted variant target ctrl state.op := fun accepted => by
            have given := accepted.2
            rw [palette] at given
            cases given
          have stops : copyCompPixels variant target (ctrl.toNat + 1) state = .error (.aborted state.trace) := by
            unfold copyCompPixels copyCompPixel
            rw [if_pos palette]
          rw [stops]
          refine ⟨filled.contained, ?_, ?_⟩
          · unfold RoundFits
            rw [if_neg isMatch]
            exact fun accepted => absurd accepted refused
          · unfold advance
            rw [if_neg isMatch, if_neg refused]
      | false =>
          have accepted : RunAccepted variant target ctrl state.op := ⟨fits, palette⟩
          by_cases enough : variant.bytes * (ctrl.toNat + 1) ≤ state.input.length
          · rcases copyCompPixels_ok lookups filled palette room enough with ⟨trace, ran, isFilled⟩
            rw [ran]
            refine ⟨isFilled, room, ?_, ?_, ?_⟩
            · rw [List.length_drop]
              exact Nat.sub_le _ _
            · unfold RoundFits
              rw [if_neg isMatch]
              exact fun _ => enough
            · unfold advance
              rw [if_neg isMatch, if_pos accepted]
          · rcases copyCompPixels_outside lookups filled palette room (Nat.lt_of_not_le enough)
              with ⟨trace, ran, contained⟩
            rw [ran]
            unfold RoundSound RoundFits
            rw [if_neg isMatch]
            exact ⟨contained, fun all => enough (all accepted)⟩
    · rw [if_pos fits]
      have refused : ¬ RunAccepted variant target ctrl state.op := fun accepted => fits accepted.1
      refine ⟨filled.contained, ?_, ?_⟩
      · unfold RoundFits
        rw [if_neg isMatch]
        exact fun accepted => absurd accepted refused
      · unfold advance
        rw [if_neg isMatch, if_neg refused]

/-- How decoding may end: nothing outside, contained accesses of the output, and if it returns, the whole output. -/
def Result.Contained (holds : Unit -> Nat -> Prop) (size : Int) : Result -> Prop
  | .aborted trace => Lib.Contained holds size trace
  | .returned outSize _ trace =>
      (outSize : Int) = size ∧ writes trace = (List.range outSize).reverse ∧ Lib.Contained holds size trace
  | .outside _ => False
  | .unfinished => False

/-- The accesses of the output and of the palette up to the end, whatever it was. -/
def Result.trace : Result -> Trace
  | .aborted trace => trace
  | .returned _ _ trace => trace
  | .outside trace => trace
  | .unfinished => []

/-- The induction over the rounds. -/
theorem decodeLoop_contained_iff (lookups : variant.divides = true -> 2 ≤ target.size -> forall byte, holds () byte)
    (rounds : Nat) (ctrl : UInt8)
    (filled : Filled holds target.size state.op state.trace) (enough : state.input.length < rounds) :
    (decodeLoop variant target rounds ctrl state).Contained holds target.size <->
      RoundsFit variant target rounds ctrl state.op state.input := by
  induction rounds generalizing ctrl state with
  | zero => cases enough
  | succ rounds ih =>
      have sound := decodeRound_sound lookups rounds ctrl filled
      unfold decodeLoop RoundsFit
      cases round : decodeRound variant target rounds ctrl state with
      | error stop =>
          rw [round] at sound
          cases stop with
          | aborted trace =>
              rcases sound with ⟨contained, fits, isNone⟩
              refine ⟨fun _ => ⟨fits, fun next rest isSome => ?_⟩, fun _ => contained⟩
              rw [isNone] at isSome
              cases isSome
          | outside trace => exact ⟨fun impossible => impossible.elim, fun both => absurd both.1 sound.2⟩
      | ok next =>
          rw [round] at sound
          rcases sound with ⟨nextFilled, inside, shorter, fits, isNext⟩
          dsimp only
          rw [isNext]
          by_cases more : (next.op : Int) < target.size
          · rw [if_pos more]
            cases isInput : next.input with
            | nil =>
                refine ⟨fun impossible => impossible.elim, fun both => ?_⟩
                rcases both.2 next.op [] rfl more with ⟨_, _, impossible, _⟩
                cases impossible
            | cons nextCtrl rest =>
                rw [isInput, List.length_cons] at shorter
                have later := @ih { next with input := rest } nextCtrl nextFilled (by show rest.length < rounds; omega)
                refine later.trans ⟨fun restFits => ⟨fits, fun op after same _ => ?_⟩, fun both => ?_⟩
                · cases same
                  exact ⟨nextCtrl, rest, rfl, restFits⟩
                · rcases both.2 next.op (nextCtrl :: rest) rfl more with ⟨otherCtrl, other, same, restFits⟩
                  cases same
                  exact restFits
          · rw [if_neg more]
            refine ⟨fun _ => ⟨fits, fun op after same less => ?_⟩,
              fun _ => ⟨by omega, nextFilled.writes, nextFilled.contained⟩⟩
            cases same
            exact absurd less more

theorem decode_contained_iff (lookups : variant.divides = true -> 2 ≤ target.size -> forall byte, holds () byte)
    (input : List UInt8) :
    (decode variant target input).Contained holds target.size <-> StreamFits variant target input := by
  unfold decode StreamFits
  cases input with
  | nil => exact ⟨fun impossible => impossible.elim, fun ⟨_, _, impossible, _⟩ => by cases impossible⟩
  | cons ctrl rest =>
      have all := @decodeLoop_contained_iff holds variant target ⟨rest, 0, []⟩ lookups
          (ctrl :: rest).length ctrl Filled.start
        (Nat.lt_succ_self _)
      refine all.trans ⟨fun fits => ⟨ctrl, rest, rfl, fits⟩, ?_⟩
      rintro ⟨_, _, same, fits⟩
      cases same
      exact fits

/-- What the loop has accessed before it ends. -/
theorem decodeLoop_trace_contained (lookups : variant.divides = true -> 2 ≤ target.size -> forall byte, holds () byte)
    (rounds : Nat) (ctrl : UInt8) (filled : Filled holds target.size state.op state.trace) :
    Contained holds target.size (decodeLoop variant target rounds ctrl state).trace := by
  induction rounds generalizing ctrl state with
  | zero => trivial
  | succ rounds ih =>
      have sound := decodeRound_sound lookups rounds ctrl filled
      unfold decodeLoop
      cases round : decodeRound variant target rounds ctrl state with
      | error stop =>
          rw [round] at sound
          cases stop with
          | aborted trace => exact sound.1
          | outside trace => exact sound.1
      | ok next =>
          rw [round] at sound
          have nextFilled := sound.1
          dsimp only
          by_cases more : (next.op : Int) < target.size
          · rw [if_pos more]
            cases next.input with
            | nil => exact nextFilled.contained
            | cons nextCtrl rest => exact @ih { next with input := rest } nextCtrl nextFilled
          · rw [if_neg more]
            exact nextFilled.contained

theorem decode_trace_contained (lookups : variant.divides = true -> 2 ≤ target.size -> forall byte, holds () byte)
    (input : List UInt8) : Contained holds target.size (decode variant target input).trace := by
  unfold decode
  cases input with
  | nil => trivial
  | cons ctrl rest => exact @decodeLoop_trace_contained holds variant target ⟨rest, 0, []⟩ lookups _ ctrl Filled.start

end Containment

/-- Exactly when every instantiation of the decoder stays inside of the input, of the images it refers to and of its
output. -/
theorem glz_decode_contained (variant : Variant) (target : Target) (input : List UInt8) :
    (decode variant target input).Contained (fun _ _ => True) target.size <-> StreamFits variant target input :=
  decode_contained_iff (fun _ _ _ => trivial) input

/-- A window with one image of four pixels, of id 0. -/
def smallWindow : SpiceGlzDecoderWindow where
  images := fun slot =>
    if slot = 0 then
      some {
        hdr := { id := 0, type := .rgb32, width := 2, height := 2, grossPixels := 4, topDown := true, winHeadDist := 0 }
        data := List.replicate 4 ⟨0, 0, 0, 0⟩ }
    else none
  nimages := 16
  oldest := 0
  tailGap := 1

/-- An image of ten pixels that comes after it. -/
def smallTarget : Target where
  size := 10
  id := 1
  palette := false
  window := fun _ => smallWindow

/-- A literal run ends after the input, and a reference to the pixel after the last one of the other image is followed.
-/
theorem glz_decode_escapes : ¬ (decode .rgb32 smallTarget [0, 1, 2]).Contained (fun _ _ => True) 10 ∧
    ¬ (decode .rgb32 smallTarget [0x24, 0, 1, 0]).Contained (fun _ _ => True) 10 := by
  have short : decode .rgb32 smallTarget [0, 1, 2] = .outside [] := by decide +kernel
  have past : decode .rgb32 smallTarget [0x24, 0, 1, 0] = .outside [] := by decide +kernel
  rw [short, past]
  exact ⟨fun impossible => impossible, fun impossible => impossible⟩

end Bounds
end Glz
end Spice
