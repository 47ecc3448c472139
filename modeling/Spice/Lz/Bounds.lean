import Spice.Lib.Accesses
import Spice.Lz.Common

namespace Spice
namespace Lz
namespace Bounds

open Lib

/-!
# The accesses of the LZ decompressor

`lz_decompress_tmpl.c` once more, for every instantiation and for any bytes, as the places
of the output that it writes and reads.  Lengths and distances are computed in 32 bits, and
pointers have 64, so that adding a length to one does not wrap.  A byte that is not there,
and an assertion that fails, end the decompression.
-/

/-- The instantiations of the template in `lz.c`. -/
inductive Decompressor
  | plt
  | plt8ToRgb32
  | plt4BEToRgb32
  | plt4LEToRgb32
  | plt1BEToRgb32
  | plt1LEToRgb32
  | a8
  | a8ToRgb32
  | rgb16
  | rgb16ToRgb32
  | rgb24
  | rgb32
  | rgbAlpha
deriving DecidableEq, Repr

namespace Decompressor

/-- What is added to the length of a match. -/
def lenFix : Decompressor -> UInt32
  | rgb16 | rgb16ToRgb32 => 2
  | rgb24 | rgb32 => 1
  | _ => 3

/-- The pixels that one unit of the compression stands for: `CAST_PLT_DISTANCE` multiplies by it. -/
def pixels : Decompressor -> Nat
  | plt4BEToRgb32 | plt4LEToRgb32 => 2
  | plt1BEToRgb32 | plt1LEToRgb32 => 8
  | _ => 1

/-- The bytes that `COPY_COMP_PIXEL` decodes after the first one. -/
def moreBytes : Decompressor -> Nat
  | rgb16 | rgb16ToRgb32 => 1
  | rgb24 | rgb32 => 2
  | _ => 0

/-- Whether an index into the palette is taken modulo `num_ents`. -/
def divides : Decompressor -> Bool
  | plt4BEToRgb32 | plt4LEToRgb32 => true
  | _ => false

/-- `CAST_PLT_DISTANCE`, and nothing for the others. -/
def cast (decompressor : Decompressor) (value : UInt32) : UInt32 := value * UInt32.ofNat decompressor.pixels

end Decompressor

/-- The only other memory is the palette, as far as an index is taken modulo the number of its entries. -/
abbrev Trace := List (Access Unit)

/-- The input that is left, the place of `op`, and the accesses. -/
structure State where
  input : List UInt8
  op : Nat
  trace : Trace
deriving DecidableEq

/-- The loop over the bytes of a long length. -/
def readLen : UInt32 -> List UInt8 -> Option (UInt32 × List UInt8)
  | _, [] => none
  | len, code :: rest => if code = 255 then readLen (len + 255) rest else some (len + code.toUInt32, rest)

/-- `MAX_DISTANCE` of `lz.c`. -/
def maxDistance : UInt32 := 8191

/-- The distance of a match. -/
def readOfs (ctrl : UInt8) : List UInt8 -> Option (UInt32 × List UInt8)
  | [] => none
  | code :: rest =>
      if code = 255 ∧ ctrl &&& 31 = 31 then
        match rest with
        | high :: low :: rest => some (high.toUInt32 * 256 + low.toUInt32 + maxDistance, rest)
        | _ => none
      else some ((ctrl &&& 31).toUInt32 * 256 + code.toUInt32, rest)

/-- The length of a match, without the bias. -/
def readLength (ctrl : UInt8) (input : List UInt8) : Option (UInt32 × List UInt8) :=
  let len := (ctrl >>> 5).toUInt32 - 1
  if len = 7 - 1 then readLen len input else some (len, input)

/-- A reference: its length and distance without the biases, and the rest of the input. -/
def readMatch (ctrl : UInt8) (input : List UInt8) : Option (UInt32 × UInt32 × List UInt8) :=
  (readLength ctrl input).bind (fun (len, input) => (readOfs ctrl input).map (fun (ofs, input) => (len, ofs, input)))

section Decompress

variable (decompressor : Decompressor) (size : Int)

def copyMatch (len ofs : UInt32) (state : State) : Except Trace State :=
  let len := decompressor.cast (len + decompressor.lenFix)
  let ofs := decompressor.cast (ofs + 1)
  let ref : Int := state.op - ofs.toNat
  if ¬ (state.op : Int) + len.toNat ≤ size then .error state.trace
  else if ¬ ref + len.toNat ≤ size then .error state.trace
  else if ¬ 0 ≤ ref then .error state.trace
  else
    let copied :=
      if ref = (state.op : Int) - 1 then writeRun size len.toNat state.op (.read ref :: state.trace)
      else copyRun size len.toNat ref state.op state.trace
    match copied with
    | .error trace => .error trace
    | .ok trace => .ok { state with op := state.op + len.toNat, trace := trace }

/-- `COPY_COMP_PIXEL`, and the assertion after it. -/
def copyCompPixel (state : State) : Except Trace State :=
  match state.input with
  | [] => .error state.trace
  | byte :: rest =>
      let looked := if decompressor.divides then .fetch () byte.toNat :: state.trace else state.trace
      let trace := writeAll decompressor.pixels state.op looked
      if rest.length < decompressor.moreBytes then .error trace
      else if ((state.op + decompressor.pixels : Nat) : Int) ≤ size then
        .ok { input := rest.drop decompressor.moreBytes, op := state.op + decompressor.pixels, trace := trace }
      else .error trace

/-- The loop over the pixels of a literal run. -/
def copyCompPixels : Nat -> State -> Except Trace State
  | 0, state => .ok state
  | count + 1, state =>
      match copyCompPixel decompressor size state with
      | .error trace => .error trace
      | .ok state => copyCompPixels count state

/-- What the control byte asks for. -/
def decompressRound (ctrl : UInt8) (state : State) : Except Trace State :=
  if 32 ≤ ctrl then
    match readMatch ctrl state.input with
    | none => .error state.trace
    | some (len, ofs, rest) => copyMatch decompressor size len ofs { state with input := rest }
  else if ¬ (state.op : Int) + (decompressor.cast (ctrl.toUInt32 + 1)).toNat ≤ size then .error state.trace
  else copyCompPixels decompressor size (ctrl.toNat + 1) state

/-- How a decompression ends; it is `unfinished` when it was given too few rounds. -/
inductive Result
  | aborted (trace : Trace)
  | returned (outSize : Nat) (rest : List UInt8) (trace : Trace)
  | unfinished
deriving DecidableEq

/-- The loop of `decompress`. -/
def decompressLoop : Nat -> UInt8 -> State -> Result
  | 0, _, _ => .unfinished
  | rounds + 1, ctrl, state =>
      match decompressRound decompressor size ctrl state with
      | .error trace => .aborted trace
      | .ok state =>
          if (state.op : Int) < size then
            match state.input with
            | [] => .aborted state.trace
            | ctrl :: rest => decompressLoop rounds ctrl { state with input := rest }
          else .returned state.op state.input state.trace

/-- `decompress`.  Every round takes a byte of the input. -/
def decompress (input : List UInt8) : Result :=
  match input with
  | [] => .aborted []
  | ctrl :: rest => decompressLoop decompressor size input.length ctrl { input := rest, op := 0, trace := [] }

end Decompress

/-! ## Every access is contained -/

section Containment

variable (holds : Unit -> Nat -> Prop)

/-- What a part of the decompression may end with. -/
def Sound (size : Int) (state : State) : Except Trace State -> Prop
  | .error trace => Contained holds size trace
  | .ok next => Filled holds size next.op next.trace ∧ (next.op : Int) ≤ size ∧ next.input.length ≤ state.input.length

/-- How a decompression may end: with contained accesses, and if it returns, with exactly the pixels of the output
written. -/
def Result.Contained (size : Int) : Result -> Prop
  | .aborted trace => Lib.Contained holds size trace
  | .returned outSize _ trace =>
      (outSize : Int) = size ∧ writes trace = (List.range outSize).reverse ∧ Lib.Contained holds size trace
  | .unfinished => False

end Containment

variable {input rest : List UInt8}

theorem readLen_shorter {len next : UInt32} (read : readLen len input = some (next, rest)) :
    rest.length ≤ input.length := by
  induction input generalizing len with
  | nil => cases read
  | cons code input ih =>
      unfold readLen at read
      rw [List.length_cons]
      split at read
      · exact Nat.le_succ_of_le (ih read)
      · cases read
        exact Nat.le_succ _

theorem readOfs_shorter {ctrl : UInt8} {ofs : UInt32} (read : readOfs ctrl input = some (ofs, rest)) :
    rest.length ≤ input.length := by
  cases input with
  | nil => cases read
  | cons code input =>
      dsimp only [readOfs] at read
      split at read
      · split at read
        · rw [Option.some.injEq, Prod.mk.injEq] at read
          rw [<- read.2, List.length_cons, List.length_cons, List.length_cons]
          omega
        · cases read
      · cases read
        exact Nat.le_succ _

/-- An offset has 17 bits. -/
theorem readOfs_bound {ctrl : UInt8} {ofs : UInt32} (read : readOfs ctrl input = some (ofs, rest)) :
    ofs.toNat < 2 ^ 17 := by
  cases input with
  | nil => cases read
  | cons code input =>
      have small := code.toNat_lt
      dsimp only [readOfs] at read
      split at read
      · split at read
        · rename_i high low _
          rw [Option.some.injEq, Prod.mk.injEq] at read
          rw [<- read.1]
          have highBound := high.toNat_lt
          have lowBound := low.toNat_lt
          simp only [UInt32.toNat_add, UInt32.toNat_mul, UInt8.toNat_toUInt32, maxDistance, UInt32.reduceToNat]
          omega
        · cases read
      · cases read
        have low : (ctrl &&& 31).toNat ≤ 31 := by
          rw [UInt8.toNat_and]
          exact Nat.and_le_right
        simp only [UInt32.toNat_add, UInt32.toNat_mul, UInt8.toNat_toUInt32, UInt32.reduceToNat]
        omega

theorem readLength_shorter {ctrl : UInt8} {len : UInt32}
    (read : readLength ctrl input = some (len, rest)) : rest.length ≤ input.length := by
  dsimp only [readLength] at read
  split at read
  · exact readLen_shorter read
  · cases read
    exact Nat.le_refl _

theorem readMatch_spec {ctrl : UInt8} {len ofs : UInt32}
    (read : readMatch ctrl input = some (len, ofs, rest)) : rest.length ≤ input.length ∧ ofs.toNat < 2 ^ 17 := by
  rcases Option.bind_eq_some_iff.mp read with ⟨⟨middleLen, middle⟩, readFirst, readSecond⟩
  rcases Option.map_eq_some_iff.mp readSecond with ⟨⟨middleOfs, last⟩, isRead, same⟩
  cases same
  exact ⟨Nat.le_trans (readOfs_shorter isRead) (readLength_shorter readFirst), readOfs_bound isRead⟩

theorem Decompressor.cast_toNat (decompressor : Decompressor) (value : UInt32) :
    (decompressor.cast value).toNat = value.toNat * decompressor.pixels % 2 ^ 32 := by
  unfold Decompressor.cast
  rw [UInt32.toNat_mul, UInt32.toNat_ofNat_of_lt']
  cases decompressor <;> decide

theorem Decompressor.pixels_bound (decompressor : Decompressor) :
    decompressor.pixels = 1 ∨ decompressor.pixels = 2 ∨ decompressor.pixels = 8 := by
  cases decompressor <;> decide

theorem Decompressor.pixels_of_divides (decompressor : Decompressor) (divides : decompressor.divides = true) :
    decompressor.pixels = 2 := by
  cases decompressor <;> first | rfl | cases divides

theorem cast_ofs_pos (decompressor : Decompressor) {ofs : UInt32} (small : ofs.toNat < 2 ^ 17) :
    0 < (decompressor.cast (ofs + 1)).toNat := by
  rw [decompressor.cast_toNat, UInt32.toNat_add]
  have one : (1 : UInt32).toNat = 1 := rfl
  rw [one]
  rcases decompressor.pixels_bound with bound | bound | bound
  · rw [bound]
    omega
  · rw [bound]
    omega
  · rw [bound]
    omega

theorem cast_count (decompressor : Decompressor) {ctrl : UInt8} (small : ctrl < 32) :
    (decompressor.cast (ctrl.toUInt32 + 1)).toNat = decompressor.pixels * (ctrl.toNat + 1) := by
  have bound : ctrl.toNat < 32 := UInt8.lt_iff_toNat_lt.mp small
  rw [decompressor.cast_toNat, UInt32.toNat_add, UInt8.toNat_toUInt32]
  have one : (1 : UInt32).toNat = 1 := rfl
  rw [one]
  rcases decompressor.pixels_bound with same | same | same
  · rw [same]
    omega
  · rw [same]
    omega
  · rw [same]
    omega

section Sound

variable {holds : Unit -> Nat -> Prop} (decompressor : Decompressor) {size : Int} {state : State}

/-- A match is contained exactly if it fits. -/
theorem copyMatch_sound {len ofs : UInt32} (small : ofs.toNat < 2 ^ 17)
    (filled : Filled holds size state.op state.trace) :
    Sound holds size state (copyMatch decompressor size len ofs state) := by
  have positive := cast_ofs_pos decompressor small
  unfold copyMatch
  dsimp only
  generalize decompressor.cast (len + decompressor.lenFix) = castLen
  generalize decompressor.cast (ofs + 1) = castOfs at positive
  by_cases fits : (state.op : Int) + castLen.toNat ≤ size
  · rw [if_neg (not_not.mpr fits)]
    by_cases refFits : (state.op : Int) - castOfs.toNat + castLen.toNat ≤ size
    · rw [if_neg (not_not.mpr refFits)]
      by_cases start : 0 ≤ (state.op : Int) - castOfs.toNat
      · rw [if_neg (not_not.mpr start)]
        have inside : ((state.op + castLen.toNat : Nat) : Int) ≤ size := by omega
        by_cases isRun : (state.op : Int) - castOfs.toNat = (state.op : Int) - 1
        · rw [if_pos isRun]
          rcases (filled.read start (by omega)).writeRun inside with ⟨next, ran, isFilled⟩
          rw [ran]
          exact ⟨isFilled, inside, Nat.le_refl _⟩
        · rw [if_neg isRun]
          rcases filled.copyRun start (by omega) inside with ⟨next, ran, isFilled⟩
          rw [ran]
          exact ⟨isFilled, inside, Nat.le_refl _⟩
      · rw [if_pos start]
        exact filled.contained
    · rw [if_pos refFits]
      exact filled.contained
  · rw [if_pos fits]
    exact filled.contained

/-- A pixel is contained exactly if it fits. -/
theorem copyCompPixel_sound (lookups : decompressor.divides = true -> 2 ≤ size -> forall byte, holds () byte)
    (filled : Filled holds size state.op state.trace)
    (room : ((state.op + decompressor.pixels : Nat) : Int) ≤ size) :
    match copyCompPixel decompressor size state with
    | .error trace => Contained holds size trace
    | .ok next => Filled holds size next.op next.trace ∧ next.op = state.op + decompressor.pixels ∧
        next.input.length ≤ state.input.length := by
  unfold copyCompPixel
  cases state.input with
  | nil => exact filled.contained
  | cons byte rest =>
      dsimp only
      have looked : Filled holds size state.op
          (if decompressor.divides then .fetch () byte.toNat :: state.trace else state.trace) := by
        split
        · rename_i divides
          have two := decompressor.pixels_of_divides divides
          exact filled.fetch (lookups divides (by omega) byte.toNat)
        · exact filled
      have written := looked.writeAll room
      by_cases short : rest.length < decompressor.moreBytes
      · rw [if_pos short]
        exact written.contained
      · rw [if_neg short, if_pos room]
        refine ⟨written, rfl, ?_⟩
        rw [List.length_drop, List.length_cons]
        omega

/-- Some pixels are contained exactly if they fit. -/
theorem copyCompPixels_sound (lookups : decompressor.divides = true -> 2 ≤ size -> forall byte, holds () byte)
    (count : Nat) (filled : Filled holds size state.op state.trace)
    (room : ((state.op + decompressor.pixels * count : Nat) : Int) ≤ size) :
    Sound holds size state (copyCompPixels decompressor size count state) := by
  induction count generalizing state with
  | zero => exact ⟨filled, room, Nat.le_refl _⟩
  | succ count ih =>
      have more : decompressor.pixels * (count + 1) = decompressor.pixels + decompressor.pixels * count := by
        rw [Nat.mul_succ, Nat.add_comm]
      have one := copyCompPixel_sound decompressor lookups filled (by omega)
      unfold copyCompPixels
      cases copied : copyCompPixel decompressor size state with
      | error trace =>
          rw [copied] at one
          exact one
      | ok next =>
          rw [copied] at one
          rcases one with ⟨nextFilled, isOp, shorter⟩
          have rest := ih nextFilled (by rw [isOp]; omega)
          dsimp only
          cases last : copyCompPixels decompressor size count next with
          | error trace =>
              rw [last] at rest
              exact rest
          | ok final =>
              rw [last] at rest
              exact ⟨rest.1, rest.2.1, Nat.le_trans rest.2.2 shorter⟩

/-- A round of the decoder is contained exactly if it fits. -/
theorem decompressRound_sound (lookups : decompressor.divides = true -> 2 ≤ size -> forall byte, holds () byte)
    (ctrl : UInt8) (filled : Filled holds size state.op state.trace) :
    Sound holds size state (decompressRound decompressor size ctrl state) := by
  unfold decompressRound
  by_cases isMatch : 32 ≤ ctrl
  · rw [if_pos isMatch]
    cases read : readMatch ctrl state.input with
    | none => exact filled.contained
    | some token =>
        rcases token with ⟨len, ofs, rest⟩
        rcases readMatch_spec read with ⟨shorter, small⟩
        have copied : Sound holds size { state with input := rest }
            (copyMatch decompressor size len ofs { state with input := rest }) :=
              copyMatch_sound decompressor small filled
        dsimp only
        cases outcome : copyMatch decompressor size len ofs { state with input := rest } with
        | error trace =>
            rw [outcome] at copied
            exact copied
        | ok next =>
            rw [outcome] at copied
            exact ⟨copied.1, copied.2.1, Nat.le_trans copied.2.2 shorter⟩
  · rw [if_neg isMatch]
    have count := cast_count decompressor (UInt8.not_le.mp isMatch)
    by_cases fits : (state.op : Int) + (decompressor.cast (ctrl.toUInt32 + 1)).toNat ≤ size
    · rw [if_neg (not_not.mpr fits)]
      rw [count] at fits
      exact copyCompPixels_sound decompressor lookups (ctrl.toNat + 1) filled (by omega)
    · rw [if_pos fits]
      exact filled.contained

end Sound

/-- The induction over the rounds. -/
theorem decompressLoop_contained {holds : Unit -> Nat -> Prop} (decompressor : Decompressor)
    {size : Int} (lookups : decompressor.divides = true -> 2 ≤ size -> forall byte, holds () byte) (rounds : Nat)
    (ctrl : UInt8) (state : State)
    (filled : Filled holds size state.op state.trace) (enough : state.input.length < rounds) :
    (decompressLoop decompressor size rounds ctrl state).Contained holds size := by
  induction rounds generalizing ctrl state with
  | zero => cases enough
  | succ rounds ih =>
      have sound := decompressRound_sound decompressor lookups ctrl filled
      unfold decompressLoop
      cases round : decompressRound decompressor size ctrl state with
      | error trace =>
          rw [round] at sound
          exact sound
      | ok next =>
          rw [round] at sound
          rcases sound with ⟨nextFilled, inside, shorter⟩
          dsimp only
          by_cases more : (next.op : Int) < size
          · rw [if_pos more]
            cases isInput : next.input with
            | nil => exact nextFilled.contained
            | cons nextCtrl rest =>
                refine ih nextCtrl { next with input := rest } nextFilled ?_
                rw [isInput, List.length_cons] at shorter
                show rest.length < rounds
                omega
          · rw [if_neg more]
            exact ⟨by omega, nextFilled.writes, nextFilled.contained⟩

theorem decompress_sound {holds : Unit -> Nat -> Prop} (decompressor : Decompressor)
    {size : Int} (lookups : decompressor.divides = true -> 2 ≤ size -> forall byte, holds () byte)
    (input : List UInt8) :
    (decompress decompressor size input).Contained holds size := by
  unfold decompress
  cases input with
  | nil => trivial
  | cons ctrl rest => exact decompressLoop_contained decompressor lookups _ ctrl _ Filled.start (Nat.lt_succ_self _)

/-! ## The first pixels that are looked up

Nothing is written before the first literal run, so the first control byte decides whether an
index is taken modulo a number of entries that is zero. -/

/-- Decompression starts with a literal run that fits, and its first byte is there. -/
def StartsLiteral (decompressor : Decompressor) (size : Int) (input : List UInt8) : Prop :=
  Exists fun ctrl => Exists fun byte => Exists fun rest => input = ctrl :: byte :: rest ∧ ctrl < 32 ∧
    ((decompressor.pixels * (ctrl.toNat + 1) : Nat) : Int) ≤ size

/-- The accesses of a part of the decompression. -/
def traceOf : Except Trace State -> Trace
  | .error trace => trace
  | .ok state => state.trace

section Growth

variable (decompressor : Decompressor) (size : Int) (state : State)

/-- A match only adds to the trace. -/
theorem suffix_copyMatch (len ofs : UInt32) : state.trace <:+ traceOf (copyMatch decompressor size len ofs state) := by
  unfold copyMatch
  dsimp only
  generalize decompressor.cast (len + decompressor.lenFix) = castLen
  generalize (state.op : Int) - (decompressor.cast (ofs + 1)).toNat = ref
  split
  · exact List.suffix_refl _
  split
  · exact List.suffix_refl _
  split
  · exact List.suffix_refl _
  by_cases isRun : ref = (state.op : Int) - 1
  · have grows := suffix_writeRun size castLen.toNat state.op (.read ref :: state.trace)
    rw [if_pos isRun]
    cases ran : writeRun size castLen.toNat state.op (.read ref :: state.trace) <;>
      exact (List.suffix_cons _ _).trans (by rwa [ran] at grows)
  · have grows := suffix_copyRun size castLen.toNat ref state.op state.trace
    rw [if_neg isRun]
    cases ran : copyRun size castLen.toNat ref state.op state.trace <;> rwa [ran] at grows

/-- What a literal pixel looks up stays among the accesses. -/
theorem suffix_copyCompPixel {byte : UInt8} {rest : List UInt8} (input : state.input = byte :: rest) :
    (if decompressor.divides then .fetch () byte.toNat :: state.trace else state.trace) <:+
      traceOf (copyCompPixel decompressor size state) := by
  unfold copyCompPixel
  rw [input]
  dsimp only
  generalize (if decompressor.divides then .fetch () byte.toNat :: state.trace else state.trace) = looked
  split
  · exact suffix_writeAll _ _ _
  split
  · exact suffix_writeAll _ _ _
  · exact suffix_writeAll _ _ _

/-- Some pixels only add to the trace. -/
theorem suffix_copyCompPixels (count : Nat) :
    state.trace <:+ traceOf (copyCompPixels decompressor size count state) := by
  induction count generalizing state with
  | zero => exact List.suffix_refl _
  | succ count ih =>
      have one : state.trace <:+ traceOf (copyCompPixel decompressor size state) := by
        cases input : state.input with
        | nil =>
            unfold copyCompPixel
            rw [input]
            exact List.suffix_refl _
        | cons byte rest =>
            refine List.IsSuffix.trans ?_ (suffix_copyCompPixel decompressor size state input)
            split
            · exact List.suffix_cons _ _
            · exact List.suffix_refl _
      unfold copyCompPixels
      split
      · rename_i failed
        rwa [failed] at one
      · rename_i next copied
        rw [copied] at one
        exact one.trans (ih next)

theorem suffix_decompressRound (ctrl : UInt8) :
    state.trace <:+ traceOf (decompressRound decompressor size ctrl state) := by
  unfold decompressRound
  split
  · split
    · exact List.suffix_refl _
    · rename_i len ofs rest _
      exact suffix_copyMatch decompressor size { state with input := rest } len ofs
  split
  · exact List.suffix_refl _
  · exact suffix_copyCompPixels decompressor size state _

variable {decompressor size state}

/-- If a decompression is contained, so are its first accesses. -/
theorem contained_of_decompressLoop {holds : Unit -> Nat -> Prop} {rounds : Nat} {ctrl : UInt8}
    (contained : (decompressLoop decompressor size rounds ctrl state).Contained holds size) :
    Contained holds size (traceOf (decompressRound decompressor size ctrl state)) := by
  induction rounds generalizing ctrl state with
  | zero => exact contained.elim
  | succ rounds ih =>
      unfold decompressLoop at contained
      split at contained
      · rename_i failed
        rw [failed]
        exact contained
      · rename_i next ran
        rw [ran]
        split at contained
        · split at contained
          · exact contained
          · rename_i nextCtrl rest _
            exact (ih contained).of_suffix (suffix_decompressRound decompressor size
              { next with input := rest } nextCtrl)
        · exact contained.2.2

end Growth

/-- A decompression that starts with a literal run looks its first byte up. -/
theorem looks_up_of_startsLiteral {holds : Unit -> Nat -> Prop} {decompressor : Decompressor} {size : Int}
    {input : List UInt8}
    (divides : decompressor.divides = true) (starts : StartsLiteral decompressor size input)
    (contained : (decompress decompressor size input).Contained holds size) : Exists fun place => holds () place := by
  rcases starts with ⟨ctrl, byte, rest, rfl, small, fits⟩
  have inside := contained_of_decompressLoop contained
  have grows := suffix_copyCompPixel decompressor size ⟨byte :: rest, 0, []⟩ rfl
  rw [if_pos divides] at grows
  unfold decompressRound at inside
  rw [if_neg (UInt8.not_le.mpr small), if_neg (by rw [cast_count decompressor small]; dsimp only; omega)] at inside
  unfold copyCompPixels at inside
  split at inside
  · rename_i failed
    rw [failed] at grows
    exact ⟨_, (inside.of_suffix grows).1⟩
  · rename_i next copied
    rw [copied] at grows
    exact ⟨_, (inside.of_suffix (grows.trans (suffix_copyCompPixels decompressor size next _))).1⟩

/-- Without a literal run at its start, a decompression aborts before any access. -/
theorem decompress_of_not_startsLiteral {decompressor : Decompressor} {size : Int} {input : List UInt8}
    (starts : ¬ StartsLiteral decompressor size input) : decompress decompressor size input = .aborted [] := by
  cases input with
  | nil => rfl
  | cons ctrl rest =>
      have aborts : decompressRound decompressor size ctrl ⟨rest, 0, []⟩ = .error [] := by
        unfold decompressRound
        by_cases isMatch : 32 ≤ ctrl
        · rw [if_pos isMatch]
          cases read : readMatch ctrl rest with
          | none => rfl
          | some token =>
              rcases token with ⟨len, ofs, left⟩
              have before := cast_ofs_pos decompressor (readMatch_spec read).2
              dsimp only
              unfold copyMatch
              dsimp only
              split
              · rfl
              split
              · rfl
              rw [if_pos (by omega)]
        · have small := UInt8.not_le.mp isMatch
          rw [if_neg isMatch, cast_count decompressor small]
          by_cases fits : ((decompressor.pixels * (ctrl.toNat + 1) : Nat) : Int) ≤ size
          · rw [if_neg (by dsimp only; omega)]
            cases rest with
            | nil => rfl
            | cons byte rest => exact absurd ⟨ctrl, byte, rest, rfl, small, fits⟩ starts
          · rw [if_pos (by dsimp only; omega)]
      show decompressLoop decompressor size (rest.length + 1) ctrl ⟨rest, 0, []⟩ = _
      unfold decompressLoop
      rw [aborts]

/-- Every instantiation, with any input, any size and any number of entries of the palette, either aborts or writes
exactly its output, reads only what it has written and divides by no zero, unless an index into an empty palette is
taken at the start. -/
theorem decompress_contained (decompressor : Decompressor) (size : Int) (input : List UInt8) (numEnts : Nat) :
    (decompress decompressor size input).Contained (fun _ _ => numEnts ≠ 0) size <->
      (numEnts = 0 -> decompressor.divides = true -> ¬ StartsLiteral decompressor size input) := by
  constructor
  · intro contained isZero divides starts
    rcases looks_up_of_startsLiteral divides starts contained with ⟨_, some_⟩
    exact some_ isZero
  · intro allowed
    by_cases lookup : numEnts = 0 ∧ decompressor.divides = true
    · rw [decompress_of_not_startsLiteral (allowed lookup.1 lookup.2)]
      trivial
    · exact decompress_sound decompressor (fun divides _ _ isZero => lookup ⟨isZero, divides⟩) input

/-- A literal pixel of four bits with a palette of no entries. -/
theorem decompress_divides_by_zero : ¬ forall (decompressor : Decompressor) (size : Int) (input : List UInt8)
    (numEnts : Nat),
    (decompress decompressor size input).Contained (fun _ _ => numEnts ≠ 0) size := by
  intro claim
  have starts : StartsLiteral .plt4BEToRgb32 2 [0, 0] := ⟨0, 0, [], rfl, by decide, by decide⟩
  rcases looks_up_of_startsLiteral rfl starts (claim .plt4BEToRgb32 2 [0, 0] 0) with ⟨_, some_⟩
  exact some_ rfl

end Bounds
end Lz
end Spice
