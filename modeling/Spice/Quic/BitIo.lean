import Spice.Lib.Run
import Spice.Lib.Int32
import Mathlib.Data.List.GetD

namespace Spice
namespace Quic
namespace BitIo

open Lib

/-!
# The bits of QUIC

Fields of up to 31 bits are put one behind the other into words of 32 bits, the first bit on top.
The writer has one word that is not full, and asks for a buffer when it writes a word and has no
room.  The reader has the next 32 bits in one word and what follows them in another.  Runs are
coded in units that grow with every unit that fits and shrink at the end of each run; the states of
the RGB plane and of each channel are kept apart.

`none` is an assertion that fails, a shift by 32 bits or more, or no more words.  Words are stored
as a little endian host stores them.
-/

/-! ## The states of runs -/

def melcstates : Nat := 32

def J : List Nat :=
  [0, 0, 0, 0, 1, 1, 1, 1, 2, 2, 2, 2, 3, 3, 3, 3, 4, 4, 5, 5, 6, 6, 7, 7, 8, 9, 10, 11, 12, 13, 14, 15]

theorem J_le (melcstate : Nat) : J.getD melcstate 0 ≤ 15 := by
  rcases Nat.lt_or_ge melcstate 32 with inside | beyond
  · have all : forall place, place < 32 -> J.getD place 0 ≤ 15 := by decide
    exact all melcstate inside
  · rw [List.getD_eq_getElem?_getD, List.getElem?_eq_none beyond]
    exact Nat.zero_le _

/-- The pixels of a hit. -/
def orderOf (melcstate : Nat) : Nat := 1 <<< J.getD melcstate 0

theorem orderOf_eq (melcstate : Nat) : orderOf melcstate = 2 ^ J.getD melcstate 0 := by
  rw [orderOf, Nat.shiftLeft_eq, Nat.one_mul]

/-- What `CommonState` has for runs. -/
structure CommonState where
  melcstate : Nat
  melclen : Nat
  melcorder : Nat
  order : melcorder = 2 ^ melclen
  small : melclen ≤ 15

namespace CommonState

variable (state : CommonState)

def setMelcstate (melcstate : Nat) : CommonState :=
  ⟨melcstate, J.getD melcstate 0, orderOf melcstate, orderOf_eq melcstate, J_le melcstate⟩

def init : CommonState := setMelcstate 0

/-- After a hit. -/
def up : CommonState := if state.melcstate < melcstates - 1 then setMelcstate (state.melcstate + 1) else state

/-- After a run. -/
def down : CommonState := if state.melcstate ≠ 0 then setMelcstate (state.melcstate - 1) else state

def hit : Nat -> CommonState -> CommonState
  | 0, state => state
  | hits + 1, state => hit hits state.up

def hitPixels : Nat -> CommonState -> Nat
  | 0, _ => 0
  | hits + 1, state => state.melcorder + hitPixels hits state.up

end CommonState

/-- A run is coded with the state of the RGB plane, `rgb_state`, or with that of a channel. -/
inductive Place
  | rgb
  | channel (index : Nat)
deriving DecidableEq, Repr

/-! ## The writer -/

/-- A shift is undefined from 32 bits on. -/
def shl (word : BitVec 32) (count : Nat) : Option (BitVec 32) := if count < 32 then some (word <<< count) else none

def shr (word : BitVec 32) (count : Nat) : Option (BitVec 32) := if count < 32 then some (word >>> count) else none

/-- The `Encoder` as a writer: the words written, the room from `io_now` to `io_end`, and the number of buffers that
were asked for. -/
structure Encoder where
  ioAvailableBits : Nat
  ioWord : BitVec 32
  words : List (BitVec 32)
  room : Nat
  buffers : Nat
  states : Place -> CommonState

namespace Encoder

variable (sizes : Nat -> Nat) (encoder : Encoder)

/-- The state that `quic_encode` starts in with its first buffer. -/
def start (room : Nat) : Encoder := ⟨32, 0, [], room, 0, fun _ => .init⟩

/-- `write_io_word` and `more_io_words`; `sizes` says how many words the buffers of `more_space` have. -/
def writeIoWord : Option Encoder :=
  if encoder.room = 0 then
    if sizes encoder.buffers = 0 then none
    else some { encoder with
      words := encoder.words ++ [encoder.ioWord]
      room := sizes encoder.buffers - 1
      buffers := encoder.buffers + 1 }
  else some { encoder with
    words := encoder.words ++ [encoder.ioWord]
    room := encoder.room - 1 }

def encode (word : BitVec 32) (len : Nat) : Option Encoder :=
  if 0 < len ∧ len < 32 ∧ word.toNat < 2 ^ len then
    if len ≤ encoder.ioAvailableBits then do
      let bits <- shl word (encoder.ioAvailableBits - len)
      some { encoder with
        ioAvailableBits := encoder.ioAvailableBits - len
        ioWord := encoder.ioWord ||| bits }
    else do
      let delta := len - encoder.ioAvailableBits
      let bits <- shr word delta
      let written <- { encoder with ioWord := encoder.ioWord ||| bits }.writeIoWord sizes
      let bits <- shl word (32 - delta)
      if 32 - delta < 32 ∧ bits.toNat % 2 ^ (32 - delta) = 0 then
        some { written with
          ioAvailableBits := 32 - delta
          ioWord := bits }
      else none
  else none

def encode32 (word : BitVec 32) : Option Encoder := do
  let encoder <- encoder.encode sizes (word >>> 16) 16
  encoder.encode sizes (word &&& 0xffff) 16

/-- The rest of a word that was begun. -/
def pad : Option Encoder :=
  if 0 < encoder.ioAvailableBits ∧ encoder.ioAvailableBits ≠ 32 then encoder.encode sizes 0 encoder.ioAvailableBits
  else some encoder

def flush : Option Encoder := do
  let encoder <- encoder.pad sizes
  let encoder <- encoder.encode32 sizes 0
  encoder.encode sizes 0 1

def encodeOnes (n : Nat) : Option Encoder := do
  let encoder <- (List.replicate (n / 32) ()).foldlM
    (fun encoder _ => encoder.encode sizes (BitVec.allOnes 32) 32) encoder
  if n % 32 ≠ 0 then encoder.encode sizes (BitVec.ofNat 32 (2 ^ (n % 32) - 1)) (n % 32) else some encoder

end Encoder

/-- The loop of `encode_run`, which says the hits, what is left and the state then.  A hit takes a pixel at least, so
that there are no more hits than pixels. -/
def runHits : Nat -> Nat -> CommonState -> Nat × Nat × CommonState
  | 0, runlen, state => (0, runlen, state)
  | fuel + 1, runlen, state =>
      if state.melcorder ≤ runlen then
        let (hits, left, last) := runHits fuel (runlen - state.melcorder) state.up
        (hits + 1, left, last)
      else (0, runlen, state)

namespace Encoder

variable (sizes : Nat -> Nat) (encoder : Encoder)

def encodeRunAt (place : Place) (runlen : Nat) : Option Encoder := do
  let (hits, left, state) := runHits runlen runlen (encoder.states place)
  let encoder <- encoder.encodeOnes sizes hits
  let encoder <- encoder.encode sizes (BitVec.ofNat 32 left) (state.melclen + 1)
  some { encoder with states := Function.update encoder.states place state.down }

def encodeRun (runlen : Nat) : Option Encoder := encoder.encodeRunAt sizes .rgb runlen

def encodeChannelRun (channel runlen : Nat) : Option Encoder := encoder.encodeRunAt sizes (.channel channel) runlen

end Encoder

/-! ## The reader -/

/-- The loop of `init_zeroLUT` with its variables. -/
def zeroLUTFrom : Nat -> Nat -> Nat -> Nat -> List Nat
  | 0, _, _, _ => []
  | count + 1, j, k, l => l :: if k - 1 = 0 then zeroLUTFrom count (j * 2) j (l - 1) else zeroLUTFrom count j (k - 1) l

def zeroLUT : List Nat := zeroLUTFrom 256 1 1 8

/-- The `Encoder` as a reader: the words from `io_now` to `io_end` and the chunks that were not asked for. -/
structure Decoder where
  ioAvailableBits : Nat
  ioWord : BitVec 32
  ioNextWord : BitVec 32
  now : List (BitVec 32)
  chunks : List (List (BitVec 32))
  states : Place -> CommonState

/-- `init_decode_io`, which reads a word whether there is one or not. -/
def initDecodeIo : List (List (BitVec 32)) -> Option Decoder
  | (word :: now) :: chunks => some ⟨0, word, word, now, chunks, fun _ => .init⟩
  | _ => none

namespace Decoder

variable (decoder : Decoder)

/-- `read_io_word` and `more_io_words`. -/
def readIoWord : Option Decoder :=
  match decoder.now, decoder.chunks with
  | word :: now, _ => some { decoder with
      ioNextWord := word
      now := now }
  | [], (word :: now) :: chunks => some { decoder with
      ioNextWord := word
      now := now
      chunks := chunks }
  | _, _ => none

def decodeEatbits (len : Nat) : Option Decoder :=
  if 0 < len ∧ len < 32 then
    if len ≤ decoder.ioAvailableBits then do
      let bits <- shr decoder.ioNextWord (decoder.ioAvailableBits - len)
      some { decoder with
        ioAvailableBits := decoder.ioAvailableBits - len
        ioWord := decoder.ioWord <<< len ||| bits }
    else do
      let delta := len - decoder.ioAvailableBits
      let before <- shl decoder.ioNextWord delta
      let read <- decoder.readIoWord
      let bits <- shr read.ioNextWord (32 - delta)
      some { read with
        ioAvailableBits := 32 - delta
        ioWord := decoder.ioWord <<< len ||| before ||| bits }
  else none

def decodeField (len : Nat) : Option (BitVec 32 × Decoder) := do
  let word <- shr decoder.ioWord (32 - len)
  let decoder <- decoder.decodeEatbits len
  some (word, decoder)

def leadingOnes : Nat := zeroLUT.getD ((~~~(decoder.ioWord >>> 24)).setWidth 8).toNat 0

/-- The inner loop of `decode_run`. -/
def countHits : Nat -> CommonState -> Nat -> CommonState × Nat
  | 0, state, runlen => (state, runlen)
  | hits + 1, state, runlen => countHits hits state.up ((runlen + state.melcorder) % 2 ^ 32)

/-- The outer loop of `decode_run`.  Every pass eats 8 of the bits that are left. -/
def decodeHits : Nat -> Decoder -> CommonState -> Nat -> Option (Decoder × CommonState × Nat)
  | 0, _, _, _ => none
  | fuel + 1, decoder, state, runlen =>
      let (state, runlen) := countHits decoder.leadingOnes state runlen
      if decoder.leadingOnes ≠ 8 then do
        let decoder <- decoder.decodeEatbits (decoder.leadingOnes + 1)
        some (decoder, state, runlen)
      else do
        let decoder <- decoder.decodeEatbits 8
        decodeHits fuel decoder state runlen

def left : Nat := 32 + decoder.ioAvailableBits + 32 * (decoder.now.length + decoder.chunks.flatten.length)

def decodeRemainder (melclen runlen : Nat) : Option (Decoder × Nat) :=
  if melclen ≠ 0 then do
    let (word, decoder) <- decoder.decodeField melclen
    some (decoder, (runlen + word.toNat) % 2 ^ 32)
  else some (decoder, runlen)

/-- A run with one of the states.  The length is an `int`. -/
def decodeRunAt (place : Place) : Option (Int × Decoder) := do
  let (decoder, state, runlen) <- decodeHits decoder.left decoder (decoder.states place) 0
  let (decoder, runlen) <- decoder.decodeRemainder state.melclen runlen
  some (int32 runlen, { decoder with states := Function.update decoder.states place state.down })

def decodeRun : Option (Int × Decoder) := decoder.decodeRunAt .rgb

def decodeChannelRun (channel : Nat) : Option (Int × Decoder) := decoder.decodeRunAt (.channel channel)

end Decoder

/-! ## Fields and runs -/

/-- A field with its length, a run of the RGB plane, or a run of a channel. -/
inductive Item
  | field (word : BitVec 32) (len : Nat) (some : 1 ≤ len) (few : len ≤ 31) (fits : word.toNat < 2 ^ len)
  | run (runlen : Nat)
  | channelRun (channel runlen : Nat)

/-- What is known of an item before it is read. -/
inductive Kind
  | field (len : Nat)
  | run
  | channelRun (channel : Nat)
deriving DecidableEq, Repr

def Item.kind : Item -> Kind
  | .field _ len _ _ _ => .field len
  | .run _ => .run
  | .channelRun channel _ => .channelRun channel

def Item.value : Item -> Int
  | .field word _ _ _ _ => word.toNat
  | .run runlen => runlen
  | .channelRun _ runlen => runlen

def Encoder.step (sizes : Nat -> Nat) (encoder : Encoder) : Item -> Option Encoder
  | .field word len _ _ _ => encoder.encode sizes word len
  | .run runlen => encoder.encodeRun sizes runlen
  | .channelRun channel runlen => encoder.encodeChannelRun sizes channel runlen

/-- A run needs fewer than 32 hits. -/
def Few (encoder : Encoder) : Item -> Prop
  | .field _ _ _ _ _ => True
  | .run runlen => (runHits runlen runlen (encoder.states .rgb)).1 < 32
  | .channelRun channel runlen => (runHits runlen runlen (encoder.states (.channel channel))).1 < 32

def Decoder.step (decoder : Decoder) : Kind -> Option (Int × Decoder)
  | .field len => do
      let (word, decoder) <- decoder.decodeField len
      some ((word.toNat : Int), decoder)
  | .run => decoder.decodeRun
  | .channelRun channel => decoder.decodeChannelRun channel

/-- All items, one after the other. -/
def Decoder.readAll : Decoder -> List Kind -> Option (List Int × Decoder)
  | decoder, [] => some ([], decoder)
  | decoder, kind :: kinds => do
      let (value, decoder) <- decoder.step kind
      let (values, decoder) <- decoder.readAll kinds
      some (value :: values, decoder)

/-! ## The bits of words -/

/-- A bit of a stream of words, the first bit of a word on top. -/
def bit (words : List (BitVec 32)) (place : Nat) : Bool := (words.getD (place / 32) 0).getMsbD (place % 32)

/-- Some bits are in a stream from a place on. -/
def Shows (words : List (BitVec 32)) (place : Nat) (bits : List Bool) : Prop :=
  forall index, index < bits.length -> bits[index]? = some (bit words (place + index))

def fieldBits (word : BitVec 32) (len : Nat) : List Bool :=
  (List.range len).map fun index => word.getMsbD (32 - len + index)

@[simp] theorem length_fieldBits (word : BitVec 32) (len : Nat) : (fieldBits word len).length = len := by
  rw [fieldBits, List.length_map, List.length_range]

theorem getElem?_fieldBits (word : BitVec 32) {len index : Nat} (inside : index < len) :
    (fieldBits word len)[index]? = some (word.getMsbD (32 - len + index)) := by
  rw [fieldBits, List.getElem?_map, List.getElem?_range inside]
  rfl

section Bits

variable {words : List (BitVec 32)} {place : Nat}

theorem bit_append_left (more : List (BitVec 32)) (inside : place < 32 * words.length) :
    bit (words ++ more) place = bit words place := by
  unfold bit
  rw [List.getD_append _ _ _ _ (by omega)]

theorem bit_append_word (word : BitVec 32) (more : List (BitVec 32)) (start : 32 * words.length ≤ place)
    (inside : place < 32 * words.length + 32) :
    bit (words ++ word :: more) place = word.getMsbD (place - 32 * words.length) := by
  have index : place / 32 = words.length := by omega
  have rest : place % 32 = place - 32 * words.length := by omega
  unfold bit
  rw [index, rest, List.getD_append_right _ _ _ _ (Nat.le_refl _), Nat.sub_self, List.getD_cons_zero]

/-- The words show two lists one after the other. -/
theorem shows_append {first second : List Bool} :
    Shows words place (first ++ second) <-> Shows words place first ∧ Shows words (place + first.length) second := by
  constructor
  · intro shows_
    constructor
    · intro index inside
      rw [<- List.getElem?_append_left inside]
      exact shows_ index (by rw [List.length_append]; omega)
    · intro index inside
      have there := shows_ (first.length + index) (by rw [List.length_append]; omega)
      rw [List.getElem?_append_right (Nat.le_add_right _ _), Nat.add_sub_cancel_left, <- Nat.add_assoc] at there
      exact there
  · rintro ⟨one, two⟩ index inside
    rcases Nat.lt_or_ge index first.length with before | beyond
    · rw [List.getElem?_append_left before]
      exact one index before
    · have there := two (index - first.length) (by rw [List.length_append] at inside; omega)
      rw [List.getElem?_append_right beyond, there, Nat.add_assoc, Nat.add_sub_cancel' beyond]

theorem shows_fieldBits {word : BitVec 32} {len : Nat} : Shows words place (fieldBits word len) <->
    forall index, index < len -> bit words (place + index) = word.getMsbD (32 - len + index) := by
  unfold Shows
  rw [length_fieldBits]
  refine forall_congr' fun index => forall_congr' fun inside => ?_
  rw [getElem?_fieldBits word inside, Option.some_inj]
  exact eq_comm

theorem Shows.congr {others : List (BitVec 32)} {bits : List Bool} (shows_ : Shows words place bits)
    (same : forall index, index < bits.length -> bit others (place + index) = bit words (place + index)) :
    Shows others place bits := by
  intro index inside
  rw [same index inside]
  exact shows_ index inside

theorem getMsbD_of_fits {word : BitVec 32} {len index : Nat} (fits : word.toNat < 2 ^ len) (few : len ≤ 32)
    (above : index < 32 - len) : word.getMsbD index = false := by
  rw [BitVec.getMsbD, BitVec.getLsbD, Nat.testBit_lt_two_pow, Bool.and_false]
  exact Nat.lt_of_lt_of_le fits (Nat.pow_le_pow_right (by decide) (by omega))

end Bits

/-! ## What the writer wrote -/

/-- The writer wrote some bits, the last of them into the word that is not full. -/
structure Holds (encoder : Encoder) (bits : List Bool) : Prop where
  shows_ : Shows (encoder.words ++ [encoder.ioWord]) 0 bits
  room : bits.length + encoder.ioAvailableBits = 32 * encoder.words.length + 32
  few : encoder.ioAvailableBits ≤ 32
  zero : forall index, 32 - encoder.ioAvailableBits ≤ index -> encoder.ioWord.getMsbD index = false

theorem holds_start (room : Nat) : Holds (.start room) [] where
  shows_ := fun index inside => absurd inside (Nat.not_lt_zero index)
  room := rfl
  few := Nat.le_refl _
  zero := fun _ _ => BitVec.getMsbD_zero

theorem writeIoWord_some {sizes : Nat -> Nat} (positive : forall buffer, 0 < sizes buffer) (encoder : Encoder) :
    Exists fun next => encoder.writeIoWord sizes = some next ∧ next.words = encoder.words ++ [encoder.ioWord] ∧
      next.states = encoder.states := by
  unfold Encoder.writeIoWord
  split
  · rw [if_neg (Nat.ne_of_gt (positive encoder.buffers))]
    exact ⟨_, rfl, rfl, rfl⟩
  · exact ⟨_, rfl, rfl, rfl⟩

section Writer

variable {encoder : Encoder} {bits : List Bool} {word : BitVec 32} {len : Nat}

/-- The bits are where they were, and the field is behind them. -/
theorem Holds.append (holds : Holds encoder bits) {words : List (BitVec 32)}
    (whole : forall index, index < 32 * encoder.words.length -> bit words index = bit encoder.words index)
    (begun : forall index, index < 32 - encoder.ioAvailableBits ->
      bit words (32 * encoder.words.length + index) = encoder.ioWord.getMsbD index)
    (field : forall index, index < len -> bit words (bits.length + index) = word.getMsbD (32 - len + index)) :
    Shows words 0 (bits ++ fieldBits word len) := by
  have room := holds.room
  refine shows_append.mpr ⟨holds.shows_.congr fun index inside => ?_, ?_⟩
  · rw [Nat.zero_add]
    rcases Nat.lt_or_ge index (32 * encoder.words.length) with before | beyond
    · rw [whole index before, bit_append_left _ before]
    · have there := begun (index - 32 * encoder.words.length) (by omega)
      rw [Nat.add_sub_cancel' beyond] at there
      rw [there, bit_append_word _ _ beyond (by omega)]
  · rw [Nat.zero_add]
    exact shows_fieldBits.mpr field

/-- A field is written behind what was written. -/
theorem encode_spec {sizes : Nat -> Nat} (positive : forall buffer, 0 < sizes buffer) (holds : Holds encoder bits)
    (some_ : 0 < len) (few : len < 32) (fits : word.toNat < 2 ^ len) :
    Exists fun next => encoder.encode sizes word len = some next ∧ Holds next (bits ++ fieldBits word len) ∧
      next.states = encoder.states := by
  have room := holds.room
  have available := holds.few
  have above : forall {index : Nat}, index < 32 - len -> word.getMsbD index = false :=
    fun inside => getMsbD_of_fits fits (Nat.le_of_lt few) inside
  unfold Encoder.encode
  rw [if_pos ⟨some_, few, fits⟩]
  split
  · rename_i inWord
    have joined : forall index, index < 32 ->
        (encoder.ioWord ||| word <<< (encoder.ioAvailableBits - len)).getMsbD index =
        (encoder.ioWord.getMsbD index || word.getMsbD (index + (encoder.ioAvailableBits - len))) := by
      intro index inside
      rw [BitVec.getMsbD_or, BitVec.getMsbD_shiftLeft]
    rw [shl, if_pos (show encoder.ioAvailableBits - len < 32 by omega)]
    refine ⟨_, rfl, ⟨?_, ?_, ?_, ?_⟩, rfl⟩
    · refine holds.append ?_ ?_ ?_
      · exact fun index inside => bit_append_left _ inside
      · intro index inside
        rw [bit_append_word _ _ (Nat.le_add_right _ _) (by omega), Nat.add_sub_cancel_left, joined index (by omega),
          above (by omega), Bool.or_false]
      · intro index inside
        dsimp only
        rw [bit_append_word _ _ (by omega) (by omega), joined _ (by omega), holds.zero _ (by omega), Bool.false_or]
        congr 1
        omega
    · rw [List.length_append, length_fieldBits]
      dsimp only
      omega
    · dsimp only
      omega
    · intro index start
      dsimp only at start ⊢
      rw [BitVec.getMsbD_or, BitVec.getMsbD_shiftLeft, holds.zero _ (by omega), Bool.false_or]
      exact BitVec.getMsbD_of_ge _ _ (by omega)
  · rename_i notInWord
    have delta : 0 < len - encoder.ioAvailableBits ∧ len - encoder.ioAvailableBits < 32 := by omega
    have tops : shr word (len - encoder.ioAvailableBits) = some (word >>> (len - encoder.ioAvailableBits)) :=
      if_pos delta.2
    obtain ⟨written, writes, isWords, isStates⟩ := writeIoWord_some positive
      { encoder with ioWord := encoder.ioWord ||| word >>> (len - encoder.ioAvailableBits) }
    have lows : (word <<< (32 - (len - encoder.ioAvailableBits))).toNat % 2 ^ (32 - (len - encoder.ioAvailableBits)) =
        0 := by
      rw [BitVec.toNat_shiftLeft, Nat.shiftLeft_eq,
        Nat.mod_mod_of_dvd _ (Nat.pow_dvd_pow 2 (Nat.sub_le 32 _)), Nat.mul_mod_left]
    have shifts : shl word (32 - (len - encoder.ioAvailableBits)) =
        some (word <<< (32 - (len - encoder.ioAvailableBits))) :=
      if_pos (by omega)
    dsimp only
    rw [tops, Option.bind_eq_bind, Option.bind_some, writes, Option.bind_eq_bind, Option.bind_some, shifts,
      Option.bind_some, if_pos ⟨by omega, lows⟩]
    have isLength : written.words.length = encoder.words.length + 1 := by
      rw [isWords, List.length_append]
      rfl
    have begun : forall index, index < 32 -> bit (written.words ++ [word <<< (32 - (len - encoder.ioAvailableBits))])
        (32 * encoder.words.length + index) = (encoder.ioWord.getMsbD index ||
          (decide (len - encoder.ioAvailableBits ≤ index) && word.getMsbD
            (index - (len - encoder.ioAvailableBits)))) := by
      intro index inside
      rw [isWords, List.append_assoc, List.singleton_append, bit_append_word _ _ (Nat.le_add_right _ _) (by omega),
        Nat.add_sub_cancel_left, BitVec.getMsbD_or, BitVec.getMsbD_ushiftRight, decide_eq_true inside, Bool.true_and,
        <- decide_not, decide_eq_decide.mpr Nat.not_lt]
    refine ⟨_, rfl, ⟨?_, ?_, ?_, ?_⟩, isStates⟩
    · refine holds.append ?_ ?_ ?_
      · intro index inside
        dsimp only
        rw [isWords, List.append_assoc, bit_append_left _ inside]
      · intro index inside
        rw [begun index (by omega), above (by omega), Bool.and_false, Bool.or_false]
      · intro index inside
        rcases Nat.lt_or_ge index encoder.ioAvailableBits with first | second
        · have there : bits.length + index = 32 * encoder.words.length + (32 - encoder.ioAvailableBits + index) :=
            by omega
          rw [there, begun _ (by omega), holds.zero _ (by omega), Bool.false_or, decide_eq_true (by omega),
            Bool.true_and]
          congr 1
          omega
        · dsimp only
          rw [bit_append_word _ _ (by omega) (by omega), BitVec.getMsbD_shiftLeft]
          congr 1
          omega
    · rw [List.length_append, length_fieldBits]
      dsimp only
      omega
    · dsimp only
      omega
    · intro index start
      dsimp only at start ⊢
      rw [BitVec.getMsbD_shiftLeft]
      exact BitVec.getMsbD_of_ge _ _ (by omega)

end Writer

/-! ### Runs -/

section Hits

variable {state : CommonState}

theorem CommonState.pos (state : CommonState) : 0 < state.melcorder := by
  rw [state.order]
  exact Nat.two_pow_pos _

theorem CommonState.melcorder_le (state : CommonState) : state.melcorder ≤ 2 ^ 15 := by
  rw [state.order]
  exact Nat.pow_le_pow_right (by decide) state.small

/-- The loop takes hits off the run until what is left is less than one. -/
theorem runHits_spec (fuel : Nat) : forall (runlen : Nat) (state : CommonState), runlen ≤ fuel ->
    (runHits fuel runlen state).2.2 = state.hit (runHits fuel runlen state).1 ∧
      state.hitPixels (runHits fuel runlen state).1 + (runHits fuel runlen state).2.1 = runlen ∧
      (runHits fuel runlen state).2.1 < (runHits fuel runlen state).2.2.melcorder := by
  induction fuel with
  | zero =>
      intro runlen state enough
      rw [Nat.le_zero.mp enough]
      exact ⟨rfl, rfl, state.pos⟩
  | succ fuel ih =>
      intro runlen state enough
      have pos := state.pos
      unfold runHits
      split
      · rename_i fits
        obtain ⟨last, pixels, less⟩ := ih (runlen - state.melcorder) state.up (by omega)
        refine ⟨last, ?_, less⟩
        show state.melcorder + state.up.hitPixels (runHits fuel (runlen - state.melcorder) state.up).1 +
          (runHits fuel (runlen - state.melcorder) state.up).2.1 = runlen
        omega
      · rename_i notFits
        exact ⟨rfl, Nat.zero_add runlen, Nat.lt_of_not_le notFits⟩

theorem hitPixels_le (hits : Nat) : forall state : CommonState, state.hitPixels hits ≤ hits * 2 ^ 15 := by
  induction hits with
  | zero => exact fun _ => Nat.zero_le _
  | succ hits ih =>
      intro state
      have one := state.melcorder_le
      have more := ih state.up
      show state.melcorder + state.up.hitPixels hits ≤ (hits + 1) * 2 ^ 15
      omega

end Hits

def hitsOf (state : CommonState) (runlen : Nat) : Nat := (runHits runlen runlen state).1

/-- What is left of a run after its hits. -/
def leftOf (state : CommonState) (runlen : Nat) : Nat := (runHits runlen runlen state).2.1

/-- What a run is written as: a one for each hit, a zero, and the remainder. -/
def runBits (state : CommonState) (runlen : Nat) : List Bool :=
  List.replicate (hitsOf state runlen) true ++
    false :: fieldBits (BitVec.ofNat 32 (leftOf state runlen)) (state.hit (hitsOf state runlen)).melclen

def afterRun (states : Place -> CommonState) (place : Place) (runlen : Nat) : Place -> CommonState :=
  Function.update states place ((states place).hit (hitsOf (states place) runlen)).down

theorem leftOf_lt (state : CommonState) (runlen : Nat) :
    leftOf state runlen < 2 ^ (state.hit (hitsOf state runlen)).melclen := by
  obtain ⟨last, _, less⟩ := runHits_spec runlen runlen state (Nat.le_refl _)
  rw [last, CommonState.order] at less
  exact less

theorem runlen_lt {state : CommonState} {runlen : Nat} (few : hitsOf state runlen < 32) : runlen < 2 ^ 31 := by
  obtain ⟨last, pixels, less⟩ := runHits_spec runlen runlen state (Nat.le_refl _)
  have ofHits := hitPixels_le (runHits runlen runlen state).1 state
  have ofLast := (runHits runlen runlen state).2.2.melcorder_le
  unfold hitsOf at few
  omega

/-- The remainder is written with a zero on top. -/
theorem fieldBits_succ {word : BitVec 32} {len : Nat} (fits : word.toNat < 2 ^ len) (few : len < 32) :
    fieldBits word (len + 1) = false :: fieldBits word len := by
  unfold fieldBits
  rw [List.range_succ_eq_map, List.map_cons, List.map_map]
  congr 1
  · exact getMsbD_of_fits fits (Nat.le_of_lt few) (by omega)
  · refine List.map_congr_left fun index _ => ?_
    show word.getMsbD (32 - (len + 1) + (index + 1)) = _
    congr 1
    omega

theorem fieldBits_ones {len : Nat} (few : len ≤ 32) :
    fieldBits (BitVec.ofNat 32 (2 ^ len - 1)) len = List.replicate len true := by
  refine List.ext_getElem? fun index => ?_
  rcases Nat.lt_or_ge index len with inside | beyond
  · rw [getElem?_fieldBits _ inside, List.getElem?_replicate_of_lt inside, BitVec.getMsbD, BitVec.getLsbD_ofNat,
      decide_eq_true (by omega), decide_eq_true (by omega), Bool.true_and, Bool.true_and, Nat.testBit_two_pow_sub_one,
      decide_eq_true (by omega)]
  · rw [List.getElem?_eq_none (by rw [length_fieldBits]; exact beyond),
      List.getElem?_eq_none (by rw [List.length_replicate]; exact beyond)]

section Runs

variable {sizes : Nat -> Nat} {encoder : Encoder} {bits : List Bool}

/-- Some ones are written. -/
theorem encodeOnes_spec (positive : forall buffer, 0 < sizes buffer) (holds : Holds encoder bits) {n : Nat}
    (few : n < 32) :
    Exists fun next => encoder.encodeOnes sizes n = some next ∧ Holds next (bits ++ List.replicate n true) ∧
      next.states = encoder.states := by
  have none32 : n / 32 = 0 := by omega
  have all : n % 32 = n := by omega
  unfold Encoder.encodeOnes
  rw [none32, all]
  show Exists fun next => (if n ≠ 0 then _ else some encoder) = some next ∧ _
  split
  · rename_i notZero
    rw [<- fieldBits_ones (Nat.le_of_lt few)]
    refine encode_spec positive holds (Nat.pos_of_ne_zero notZero) few ?_
    rw [BitVec.toNat_ofNat]
    have pos := Nat.two_pow_pos n
    exact Nat.lt_of_le_of_lt (Nat.mod_le _ _) (by omega)
  · rename_i isZero
    rw [not_not.mp isZero]
    exact ⟨encoder, rfl, by rwa [List.replicate_zero, List.append_nil], rfl⟩

/-- A run is written as its hits and its remainder. -/
theorem encodeRunAt_spec (positive : forall buffer, 0 < sizes buffer) (holds : Holds encoder bits) {place : Place}
    {runlen : Nat} (few : hitsOf (encoder.states place) runlen < 32) :
    Exists fun next => encoder.encodeRunAt sizes place runlen = some next ∧
      Holds next (bits ++ runBits (encoder.states place) runlen) ∧
        next.states = afterRun encoder.states place runlen := by
  have isLast := (runHits_spec runlen runlen (encoder.states place) (Nat.le_refl _)).1
  have small := ((encoder.states place).hit (hitsOf (encoder.states place) runlen)).small
  have less := leftOf_lt (encoder.states place) runlen
  have isLeft : (BitVec.ofNat 32 (leftOf (encoder.states place) runlen)).toNat =
      leftOf (encoder.states place) runlen := by
    refine Nat.mod_eq_of_lt (Nat.lt_of_lt_of_le less (Nat.pow_le_pow_right (by decide) ?_))
    exact Nat.le_trans small (by decide)
  obtain ⟨middle, ones, middleHolds, middleStates⟩ := encodeOnes_spec positive holds few
  obtain ⟨next, remainder, nextHolds, nextStates⟩ := encode_spec positive middleHolds (Nat.succ_pos _)
    (Nat.succ_lt_succ (Nat.lt_of_le_of_lt small (by decide)))
    (show (BitVec.ofNat 32 (leftOf (encoder.states place) runlen)).toNat < 2 ^ (_ + 1) by
      rw [isLeft, Nat.pow_succ]
      exact Nat.lt_of_lt_of_le less (Nat.le_mul_of_pos_right _ (by decide)))
  rw [fieldBits_succ (by rw [isLeft]; exact less) (Nat.lt_of_le_of_lt small (by decide)),
    List.append_assoc] at nextHolds
  refine ⟨{ next with states := afterRun encoder.states place runlen }, ?_,
    ⟨nextHolds.shows_, nextHolds.room, nextHolds.few, nextHolds.zero⟩, rfl⟩
  unfold Encoder.encodeRunAt
  dsimp only
  rw [isLast]
  change (encoder.encodeOnes sizes (hitsOf (encoder.states place) runlen)).bind _ = _
  rw [ones, Option.bind_some]
  change (middle.encode sizes (BitVec.ofNat 32 (leftOf (encoder.states place) runlen)) _).bind _ = _
  rw [show (runHits runlen runlen (encoder.states place)).1 = hitsOf (encoder.states place) runlen from rfl, remainder,
    Option.bind_some, nextStates, middleStates]
  rfl

end Runs

/-! ### All items -/

def Item.bits (states : Place -> CommonState) : Item -> List Bool
  | .field word len _ _ _ => fieldBits word len
  | .run runlen => runBits (states .rgb) runlen
  | .channelRun channel runlen => runBits (states (.channel channel)) runlen

def Item.after (states : Place -> CommonState) : Item -> Place -> CommonState
  | .field _ _ _ _ _ => states
  | .run runlen => afterRun states .rgb runlen
  | .channelRun channel runlen => afterRun states (.channel channel) runlen

/-- The runs of an item have fewer than 32 hits. -/
def Item.Short (states : Place -> CommonState) : Item -> Prop
  | .field _ _ _ _ _ => True
  | .run runlen => hitsOf (states .rgb) runlen < 32
  | .channelRun channel runlen => hitsOf (states (.channel channel)) runlen < 32

/-- The bits of all items, and the states after them. -/
def written : (Place -> CommonState) -> List Item -> List Bool × (Place -> CommonState)
  | states, [] => ([], states)
  | states, item :: items =>
      (item.bits states ++ (written (item.after states) items).1, (written (item.after states) items).2)

/-- All runs are short in the states that they meet. -/
def Shorts : (Place -> CommonState) -> List Item -> Prop
  | _, [] => True
  | states, item :: items => item.Short states ∧ Shorts (item.after states) items

section Items

variable {sizes : Nat -> Nat} {bits : List Bool}

theorem step_spec (positive : forall buffer, 0 < sizes buffer) {encoder : Encoder} (holds : Holds encoder bits)
    {item : Item}
    (short : item.Short encoder.states) : Exists fun next => encoder.step sizes item = some next ∧
      Holds next (bits ++ item.bits encoder.states) ∧ next.states = item.after encoder.states := by
  cases item with
  | field word len some_ few fits => exact encode_spec positive holds some_ (Nat.lt_succ_of_le few) fits
  | run runlen => exact encodeRunAt_spec positive holds short
  | channelRun channel runlen => exact encodeRunAt_spec positive holds short

theorem short_of_few {encoder : Encoder} {item : Item} (few : Few encoder item) : item.Short encoder.states := by
  cases item with
  | field => trivial
  | run => exact few
  | channelRun => exact few

/-- The induction over the items that are written. -/
theorem run_spec (positive : forall buffer, 0 < sizes buffer) (items : List Item) :
    forall (past : List Item) (encoder : Encoder) (bits : List Bool), Holds encoder bits ->
      Meets (Encoder.step sizes) (fun _ => Few) past encoder items ->
      Shorts encoder.states items ∧ Exists fun last => run (Encoder.step sizes) encoder items = some last ∧
        Holds last (bits ++ (written encoder.states items).1) ∧ last.states = (written encoder.states items).2 := by
  induction items with
  | nil =>
      intro past encoder bits holds _
      exact ⟨trivial, encoder, rfl, by rwa [show (written encoder.states []).1 = [] from rfl, List.append_nil], rfl⟩
  | cons item items ih =>
      intro past encoder bits holds meets
      have short := short_of_few meets.1
      obtain ⟨next, stepped, nextHolds, isNext⟩ := step_spec positive holds short
      obtain ⟨shorts, last, ran, lastHolds, isLast⟩ := ih _ next _ nextHolds (meets.2 next stepped)
      rw [isNext] at shorts lastHolds isLast
      rw [List.append_assoc] at lastHolds
      exact ⟨⟨short, shorts⟩, last, (run_cons_of_some _ _ stepped).trans ran, lastHolds, isLast⟩

/-- The last word is filled up. -/
theorem pad_spec (positive : forall buffer, 0 < sizes buffer) {encoder : Encoder} (holds : Holds encoder bits) :
    Exists fun next => Exists fun padding => encoder.pad sizes = some next ∧ Holds next (bits ++ padding) ∧
      32 ∣ (bits ++ padding).length := by
  have room := holds.room
  have available := holds.few
  unfold Encoder.pad
  split
  · rename_i begun
    obtain ⟨next, encoded, nextHolds, _⟩ := encode_spec positive holds begun.1 (Nat.lt_of_le_of_ne available begun.2)
      (show (0 : BitVec 32).toNat < 2 ^ encoder.ioAvailableBits from Nat.two_pow_pos _)
    refine ⟨next, _, encoded, nextHolds, ?_⟩
    rw [List.length_append, length_fieldBits]
    omega
  · rename_i notBegun
    refine ⟨encoder, [], rfl, by rwa [List.append_nil], ?_⟩
    rw [List.append_nil]
    omega

/-- The last word is written, and a word behind it. -/
theorem flush_spec (positive : forall buffer, 0 < sizes buffer) {encoder : Encoder} (holds : Holds encoder bits) :
    Exists fun flushed => encoder.flush sizes = some flushed ∧ Shows flushed.words 0 bits ∧
      bits.length + 32 ≤ 32 * flushed.words.length := by
  obtain ⟨padded, padding, pads, paddedHolds, whole⟩ := pad_spec positive holds
  obtain ⟨first, isFirst, firstHolds, _⟩ := encode_spec positive paddedHolds (show 0 < 16 by decide)
    (by decide) (show ((0 : BitVec 32) >>> 16).toNat < 2 ^ 16 by decide)
  obtain ⟨second, isSecond, secondHolds, _⟩ := encode_spec positive firstHolds (show 0 < 16 by decide)
    (by decide) (show ((0 : BitVec 32) &&& 0xffff).toNat < 2 ^ 16 by decide)
  obtain ⟨last, isLast, lastHolds, _⟩ := encode_spec positive secondHolds (show 0 < 1 by decide)
    (by decide) (show (0 : BitVec 32).toNat < 2 ^ 1 by decide)
  have flushes : encoder.flush sizes = some last := by
    unfold Encoder.flush Encoder.encode32
    simp only [pads, isFirst, isSecond, isLast, Option.bind_eq_bind, Option.bind_some]
  have room := lastHolds.room
  have few := lastHolds.few
  rw [List.length_append, List.length_append, List.length_append, length_fieldBits, length_fieldBits,
    length_fieldBits] at room
  have longer : bits.length ≤ (bits ++ padding).length := by
    rw [List.length_append]
    exact Nat.le_add_right _ _
  have enough : bits.length + 32 ≤ 32 * last.words.length := by omega
  have shown := lastHolds.shows_
  rw [List.append_assoc, List.append_assoc, List.append_assoc] at shown
  refine ⟨last, flushes, (shows_append.mp shown).1.congr fun index inside => ?_, enough⟩
  exact (bit_append_left _ (by omega)).symm

end Items

/-! ## What the reader reads -/

/-- The reader is at a place of a stream of words, and has read some of them. -/
structure AtWord (words : List (BitVec 32)) (place read : Nat) (decoder : Decoder) : Prop where
  aligned : place + decoder.ioAvailableBits = 32 * read
  few : decoder.ioAvailableBits < 32
  window : forall index, index < 32 -> decoder.ioWord.getMsbD index = bit words (place + index)
  next : forall index, index < 32 -> decoder.ioNextWord.getMsbD index = bit words (32 * read + index)
  rest : decoder.now ++ decoder.chunks.flatten = words.drop (read + 1)
  chunks : forall chunk, chunk ∈ decoder.chunks -> chunk ≠ []

def At (words : List (BitVec 32)) (place : Nat) (decoder : Decoder) : Prop :=
  Exists fun read => AtWord words place read decoder

section Reader

variable {words : List (BitVec 32)} {place read : Nat} {decoder : Decoder}

theorem bit_word {word : BitVec 32} (isWord : words[read]? = some word) {index : Nat} (inside : index < 32) :
    bit words (32 * read + index) = word.getMsbD index := by
  have isRead : (32 * read + index) / 32 = read := by omega
  have isIndex : (32 * read + index) % 32 = index := by omega
  unfold bit
  rw [isRead, isIndex, List.getD_eq_getElem?_getD, isWord]
  rfl

theorem initDecodeIo_spec {chunks : List (List (BitVec 32))} (filled : forall chunk, chunk ∈ chunks -> chunk ≠ [])
    (some_ : 0 < chunks.flatten.length) : Exists fun begun => initDecodeIo chunks = some begun ∧
      At chunks.flatten 0 begun ∧ begun.states = fun _ => .init := by
  cases chunks with
  | nil => cases some_
  | cons chunk chunks =>
      cases chunk with
      | nil => exact absurd rfl (filled [] List.mem_cons_self)
      | cons word now =>
          have first : forall index, index < 32 ->
              word.getMsbD index = bit ((word :: now) :: chunks).flatten (32 * 0 + index) :=
            fun index inside => (bit_word rfl inside).symm
          exact ⟨_, rfl, ⟨0, rfl, Nat.zero_lt_succ 31, first, first, rfl,
            fun chunk member => filled chunk (List.mem_cons_of_mem _ member)⟩, rfl⟩

/-- The next word is read, from the next chunk if need be. -/
theorem AtWord.readIoWord (at_ : AtWord words place read decoder) (more : read + 1 < words.length) :
    Exists fun next => decoder.readIoWord = some next ∧ next.states = decoder.states ∧
      (forall index, index < 32 -> next.ioNextWord.getMsbD index = bit words (32 * (read + 1) + index)) ∧
      next.now ++ next.chunks.flatten = words.drop (read + 1 + 1) ∧ forall chunk, chunk ∈ next.chunks ->
        chunk ≠ [] := by
  have isRest := at_.rest
  rw [List.drop_eq_getElem_cons more] at isRest
  have isWord : words[read + 1]? = some words[read + 1] := List.getElem?_eq_getElem more
  unfold Decoder.readIoWord
  split
  · rename_i word now isNow
    rw [isNow, List.cons_append, List.cons.injEq] at isRest
    exact ⟨_, rfl, rfl, fun index inside => by rw [bit_word isWord inside, <- isRest.1], isRest.2, at_.chunks⟩
  · rename_i word now chunks isNow isChunks
    rw [isNow, isChunks, List.nil_append, List.flatten_cons, List.cons_append, List.cons.injEq] at isRest
    refine ⟨_, rfl, rfl, fun index inside =>
      by rw [bit_word isWord inside, <- isRest.1], isRest.2, fun chunk member => ?_⟩
    exact at_.chunks chunk (by rw [isChunks]; exact List.mem_cons_of_mem _ member)
  · rename_i notNow notChunks
    have isNow : decoder.now = [] := by
      by_contra some_
      obtain ⟨word, now, isCons⟩ := List.exists_cons_of_ne_nil some_
      exact notNow word now isCons
    have isChunks : decoder.chunks = [] := by
      by_contra some_
      obtain ⟨chunk, chunks, isCons⟩ := List.exists_cons_of_ne_nil some_
      obtain ⟨word, now, isChunk⟩ :=
        List.exists_cons_of_ne_nil (at_.chunks chunk (by rw [isCons]; exact List.mem_cons_self))
      rw [isChunk] at isCons
      exact notChunks word now chunks isNow isCons
    rw [isNow, isChunks] at isRest
    cases isRest

/-- Bits are eaten. -/
theorem decodeEatbits_spec (at_ : At words place decoder) {len : Nat} (some_ : 0 < len) (few : len < 32)
    (inside : place + len + 32 ≤ 32 * words.length) : Exists fun next => decoder.decodeEatbits len = some next ∧
      At words (place + len) next ∧ next.states = decoder.states := by
  obtain ⟨read, at_⟩ := at_
  have aligned := at_.aligned
  have available := at_.few
  have shifted : forall index, index < 32 -> (decoder.ioWord <<< len).getMsbD index =
      (decide (index + len < 32) && bit words (place + len + index)) := by
    intro index _
    rw [BitVec.getMsbD_shiftLeft]
    by_cases inWord : index + len < 32
    · rw [decide_eq_true inWord, Bool.true_and, at_.window _ inWord]
      congr 1
      omega
    · rw [decide_eq_false inWord, Bool.false_and]
      exact BitVec.getMsbD_of_ge _ _ (by omega)
  unfold Decoder.decodeEatbits
  rw [if_pos ⟨some_, few⟩]
  split
  · rename_i inWord
    have bits : shr decoder.ioNextWord (decoder.ioAvailableBits - len) =
        some (decoder.ioNextWord >>> (decoder.ioAvailableBits - len)) := if_pos (by omega)
    rw [bits, Option.bind_eq_bind, Option.bind_some]
    refine ⟨_, rfl, ⟨read, by dsimp only; omega, by dsimp only; omega, ?_, at_.next, at_.rest, at_.chunks⟩, rfl⟩
    intro index small
    rw [BitVec.getMsbD_or, shifted index small, BitVec.getMsbD_ushiftRight, decide_eq_true small, Bool.true_and]
    by_cases early : index < decoder.ioAvailableBits - len
    · rw [decide_eq_true early, decide_eq_true (by omega), Bool.true_and, Bool.not_true, Bool.false_and, Bool.or_false]
    · have there : 32 * read + (index - (decoder.ioAvailableBits - len)) = place + len + index := by omega
      rw [decide_eq_false early, Bool.not_false, Bool.true_and, at_.next _ (by omega), there]
      cases decide (index + len < 32) <;> simp
  · rename_i notInWord
    have delta : len - decoder.ioAvailableBits < 32 := by omega
    have before : shl decoder.ioNextWord (len - decoder.ioAvailableBits) =
        some (decoder.ioNextWord <<< (len - decoder.ioAvailableBits)) := if_pos delta
    obtain ⟨next, reads, isStates, isNext, isRest, isChunks⟩ := at_.readIoWord (by omega)
    have bits : shr next.ioNextWord (32 - (len - decoder.ioAvailableBits)) =
        some (next.ioNextWord >>> (32 - (len - decoder.ioAvailableBits))) := if_pos (by omega)
    dsimp only
    rw [before, Option.bind_eq_bind, Option.bind_some, reads, Option.bind_eq_bind, Option.bind_some, bits,
      Option.bind_some]
    refine ⟨_, rfl, ⟨read + 1, by dsimp only; omega, by dsimp only; omega, ?_, isNext, isRest, isChunks⟩, isStates⟩
    intro index small
    rw [BitVec.getMsbD_or, BitVec.getMsbD_or, shifted index small, BitVec.getMsbD_shiftLeft, BitVec.getMsbD_ushiftRight,
      decide_eq_true small, Bool.true_and]
    by_cases early : index < 32 - (len - decoder.ioAvailableBits)
    · have there : 32 * read + (index + (len - decoder.ioAvailableBits)) = place + len + index := by omega
      rw [decide_eq_true early, Bool.not_true, Bool.false_and, Bool.or_false, at_.next _ (by omega), there]
      cases decide (index + len < 32) <;> simp
    · have there : 32 * (read + 1) + (index - (32 - (len - decoder.ioAvailableBits))) = place + len + index := by omega
      rw [decide_eq_false early, Bool.not_false, Bool.true_and, isNext _ (by omega), there, decide_eq_false (by omega),
        BitVec.getMsbD_of_ge decoder.ioNextWord _ (by omega), Bool.false_and, Bool.false_or, Bool.false_or]

/-- A field comes back. -/
theorem decodeField_spec (at_ : At words place decoder) {word : BitVec 32} {len : Nat} (some_ : 0 < len)
    (few : len < 32)
    (fits : word.toNat < 2 ^ len) (shows_ : Shows words place (fieldBits word len))
    (inside : place + len + 32 ≤ 32 * words.length) : Exists fun next => decoder.decodeField len = some (word, next) ∧
      At words (place + len) next ∧ next.states = decoder.states := by
  obtain ⟨next, eats, nextAt, isStates⟩ := decodeEatbits_spec at_ some_ few inside
  obtain ⟨read, at_⟩ := at_
  have isWord : decoder.ioWord >>> (32 - len) = word := by
    refine BitVec.eq_of_getMsbD_eq fun index small => ?_
    rw [BitVec.getMsbD_ushiftRight, decide_eq_true small, Bool.true_and]
    by_cases above : index < 32 - len
    · rw [decide_eq_true above, getMsbD_of_fits fits (Nat.le_of_lt few) above]
      rfl
    · rw [decide_eq_false above, at_.window _ (by omega), shows_fieldBits.mp shows_ _ (by omega)]
      show word.getMsbD _ = _
      congr 1
      omega
  have top : shr decoder.ioWord (32 - len) = some word := by rw [shr, if_pos (by omega), isWord]
  unfold Decoder.decodeField
  rw [top, Option.bind_eq_bind, Option.bind_some, eats]
  exact ⟨next, rfl, nextAt, isStates⟩

theorem zeroLUT_eq : forall byte, byte < 256 -> forall hits, hits < 9 ->
    (forall index, index < hits -> byte.testBit (7 - index) = true) -> (hits = 8 ∨ byte.testBit (7 - hits) = false) ->
    zeroLUT.getD (255 - byte) 0 = hits := by
  decide +kernel

/-- The table says how many of the next 8 bits are ones before the first zero. -/
theorem leadingOnes_eq (at_ : At words place decoder) {hits : Nat} (few : hits ≤ 8)
    (ones : forall index, index < hits -> bit words (place + index) = true)
    (zero : hits = 8 ∨ bit words (place + hits) = false) : decoder.leadingOnes = hits := by
  obtain ⟨read, at_⟩ := at_
  have isIndex : ((~~~(decoder.ioWord >>> 24)).setWidth 8).toNat = 255 - decoder.ioWord.toNat / 2 ^ 24 := by
    rw [BitVec.toNat_setWidth, BitVec.toNat_not, BitVec.toNat_ushiftRight, Nat.shiftRight_eq_div_pow]
    omega
  have isBit : forall index, index < 8 ->
      (decoder.ioWord.toNat / 2 ^ 24).testBit (7 - index) = bit words (place + index) := by
    intro index inside
    rw [<- at_.window index (by omega), BitVec.getMsbD, decide_eq_true (by omega), Bool.true_and, BitVec.getLsbD,
      Nat.testBit_div_two_pow]
    congr 1
    omega
  unfold Decoder.leadingOnes
  rw [isIndex]
  refine zeroLUT_eq _ (by omega) hits (by omega) (fun index inside => ?_) ?_
  · rw [isBit index (by omega)]
    exact ones index inside
  · rcases Nat.lt_or_ge hits 8 with less | all
    · rw [isBit hits less]
      exact zero
    · exact .inl (Nat.le_antisymm few all)

end Reader

section Hits

theorem hit_add (first second : Nat) :
    forall state : CommonState, state.hit (first + second) = (state.hit first).hit second ∧
      state.hitPixels (first + second) = state.hitPixels first + (state.hit first).hitPixels second := by
  induction first with
  | zero =>
      intro state
      rw [Nat.zero_add]
      exact ⟨rfl, (Nat.zero_add _).symm⟩
  | succ first ih =>
      intro state
      obtain ⟨isHit, pixels⟩ := ih state.up
      rw [Nat.add_right_comm]
      refine ⟨isHit, ?_⟩
      show state.melcorder + state.up.hitPixels (first + second) = state.melcorder + state.up.hitPixels first + _
      rw [pixels, Nat.add_assoc]
      rfl

theorem countHits_spec (hits : Nat) : forall (state : CommonState) (runlen : Nat), runlen < 2 ^ 32 ->
    Decoder.countHits hits state runlen = (state.hit hits, (runlen + state.hitPixels hits) % 2 ^ 32) := by
  induction hits with
  | zero =>
      intro state runlen small
      rw [show state.hitPixels 0 = 0 from rfl, Nat.add_zero, Nat.mod_eq_of_lt small]
      rfl
  | succ hits ih =>
      intro state runlen small
      unfold Decoder.countHits
      rw [ih _ _ (Nat.mod_lt _ (by decide)), Nat.mod_add_mod, Nat.add_assoc]
      rfl

end Hits

section Runs

variable {words : List (BitVec 32)}

/-- The hits of a run come back. -/
theorem decodeHits_spec (fuel : Nat) : forall (state : CommonState) (runlen : Nat) {hits place : Nat}
    {decoder : Decoder},
    At words place decoder -> (forall index, index < hits -> bit words (place + index) = true) ->
    bit words (place + hits) = false -> hits < 8 * fuel -> place + (hits + 1) + 32 ≤ 32 * words.length ->
      runlen < 2 ^ 32 ->
    Exists fun next => Decoder.decodeHits fuel decoder state runlen =
      some (next, state.hit hits, (runlen + state.hitPixels hits) % 2 ^ 32) ∧
      At words (place + (hits + 1)) next ∧ next.states = decoder.states := by
  induction fuel with
  | zero =>
      intro state runlen hits place decoder _ _ _ enough
      exact absurd enough (Nat.not_lt_zero hits)
  | succ fuel ih =>
      intro state runlen hits place decoder at_ ones zero enough inside small
      unfold Decoder.decodeHits
      rcases Nat.lt_or_ge hits 8 with less | more
      · have leading := leadingOnes_eq at_ (Nat.le_of_lt less) ones (.inr zero)
        obtain ⟨next, eats, nextAt, isStates⟩ := decodeEatbits_spec at_ (Nat.succ_pos hits) (by omega) inside
        rw [leading, countHits_spec hits state runlen small]
        dsimp only
        rw [if_pos (Nat.ne_of_lt less), eats]
        exact ⟨next, rfl, nextAt, isStates⟩
      · have leading := leadingOnes_eq at_ (Nat.le_refl 8) (fun index few => ones index (by omega)) (.inl rfl)
        obtain ⟨middle, eats, middleAt, middleStates⟩ := decodeEatbits_spec at_ (by decide) (by decide)
          (show place + 8 + 32 ≤ 32 * words.length by omega)
        have split := hit_add 8 (hits - 8) state
        rw [Nat.add_sub_cancel' more] at split
        obtain ⟨next, decodes, nextAt, isStates⟩ := ih (state.hit 8)
          ((runlen + state.hitPixels 8) % 2 ^ 32) middleAt
          (fun index few => by rw [Nat.add_assoc]; exact ones (8 + index) (by omega))
          (by rw [Nat.add_assoc, Nat.add_sub_cancel' more]; exact zero) (by omega)
          (show place + 8 + (hits - 8 + 1) + 32 ≤ _ by omega) (Nat.mod_lt _ (by decide))
        rw [leading, countHits_spec 8 state runlen small]
        dsimp only
        rw [if_neg (not_not_intro rfl), eats, Option.bind_eq_bind, Option.bind_some, decodes, split.1, split.2,
          Nat.mod_add_mod, Nat.add_assoc]
        have there : place + (8 + (hits - 8 + 1)) = place + (hits + 1) := by omega
        rw [Nat.add_assoc, there] at nextAt
        exact ⟨next, rfl, nextAt, isStates.trans middleStates⟩

/-- The remainder of a run comes back. -/
theorem decodeRemainder_spec {decoder : Decoder} {place len runlen left : Nat} (at_ : At words place decoder)
    (small : len ≤ 15)
    (less : left < 2 ^ len) (shows_ : Shows words place (fieldBits (BitVec.ofNat 32 left) len))
    (inside : place + len + 32 ≤ 32 * words.length) (noWrap : runlen + left < 2 ^ 32) :
    Exists fun next => decoder.decodeRemainder len runlen = some (next, runlen + left) ∧ At words (place + len) next ∧
      next.states = decoder.states := by
  unfold Decoder.decodeRemainder
  split
  · rename_i some_
    have isLeft : (BitVec.ofNat 32 left).toNat = left := Nat.mod_eq_of_lt (by omega)
    obtain ⟨next, reads, nextAt, isStates⟩ := decodeField_spec at_ (Nat.pos_of_ne_zero some_) (by omega)
      (by rw [isLeft]; exact less) shows_ inside
    rw [reads, Option.bind_eq_bind, Option.bind_some]
    dsimp only
    rw [isLeft, Nat.mod_eq_of_lt noWrap]
    exact ⟨next, rfl, nextAt, isStates⟩
  · rename_i isZero
    rw [not_not.mp isZero] at less ⊢
    rw [Nat.lt_one_iff.mp less]
    exact ⟨decoder, rfl, at_, rfl⟩

/-- A run is read with the state that it was written with. -/
theorem decodeRunAt_spec {decoder : Decoder} {place runlen : Nat} {slot : Place} (at_ : At words place decoder)
    (few : hitsOf (decoder.states slot) runlen < 32) (shows_ : Shows words place (runBits (decoder.states slot) runlen))
    (inside : place + (runBits (decoder.states slot) runlen).length + 32 ≤ 32 * words.length) :
    Exists fun next => decoder.decodeRunAt slot = some ((runlen : Int), next) ∧
      At words (place + (runBits (decoder.states slot) runlen).length) next ∧
      next.states = afterRun decoder.states slot runlen := by
  have pixels := (runHits_spec runlen runlen (decoder.states slot) (Nat.le_refl _)).2.1
  have less := leftOf_lt (decoder.states slot) runlen
  have bound := runlen_lt few
  have isLength : (runBits (decoder.states slot) runlen).length = hitsOf (decoder.states slot) runlen + 1 +
      ((decoder.states slot).hit (hitsOf (decoder.states slot) runlen)).melclen := by
    rw [runBits, List.length_append, List.length_replicate, List.length_cons, length_fieldBits]
    omega
  rw [isLength] at inside ⊢
  obtain ⟨ones, zeroed⟩ := shows_append.mp shows_
  obtain ⟨zero, remainder⟩ := shows_append.mp (show Shows words _ ([false] ++ _) from zeroed)
  rw [List.length_replicate] at zero remainder
  obtain ⟨middle, hits, middleAt, middleStates⟩ := decodeHits_spec decoder.left (decoder.states slot) 0 at_
    (fun index small => by
      have one := ones index (by rw [List.length_replicate]; exact small)
      rw [List.getElem?_replicate_of_lt small] at one
      exact (Option.some_inj.mp one).symm)
    (Option.some_inj.mp (zero 0 (by decide))).symm
    (by unfold Decoder.left; omega) (by omega) (by decide)
  rw [Nat.zero_add, Nat.mod_eq_of_lt
    (show (decoder.states slot).hitPixels (hitsOf (decoder.states slot) runlen) < 2 ^ 32 by
    unfold hitsOf
    omega)] at hits
  obtain ⟨next, decodes, nextAt, isStates⟩ := decodeRemainder_spec middleAt
    ((decoder.states slot).hit (hitsOf (decoder.states slot) runlen)).small less
    (by rw [<- Nat.add_assoc]; exact remainder) (by omega)
    (show (decoder.states slot).hitPixels (hitsOf (decoder.states slot) runlen) +
      leftOf (decoder.states slot) runlen < 2 ^ 32 by
      unfold hitsOf leftOf
      omega)
  have isRunlen : (decoder.states slot).hitPixels (hitsOf (decoder.states slot) runlen) +
      leftOf (decoder.states slot) runlen =
      runlen := pixels
  rw [isRunlen] at decodes
  refine ⟨{ next with states := afterRun decoder.states slot runlen }, ?_, ?_, rfl⟩
  · unfold Decoder.decodeRunAt
    rw [hits, Option.bind_eq_bind, Option.bind_some]
    dsimp only
    rw [decodes, Option.bind_eq_bind, Option.bind_some, int32_of_lt bound, isStates, middleStates]
    rfl
  · obtain ⟨read, atRead⟩ := nextAt
    rw [Nat.add_assoc] at atRead
    exact ⟨read, atRead.aligned, atRead.few, atRead.window, atRead.next, atRead.rest, atRead.chunks⟩

/-- An item comes back. -/
theorem decoderStep_spec {decoder : Decoder} {place : Nat} {item : Item} (at_ : At words place decoder)
    (short : item.Short decoder.states) (shows_ : Shows words place (item.bits decoder.states))
    (inside : place + (item.bits decoder.states).length + 32 ≤ 32 * words.length) :
    Exists fun next => decoder.step item.kind = some (item.value, next) ∧
      At words (place + (item.bits decoder.states).length) next ∧ next.states = item.after decoder.states := by
  cases item with
  | field word len some_ few fits =>
      rw [show (Item.field word len some_ few fits).bits decoder.states = fieldBits word len from rfl,
        length_fieldBits] at inside ⊢
      obtain ⟨next, reads, nextAt, isStates⟩ := decodeField_spec at_ some_ (Nat.lt_succ_of_le few) fits shows_ inside
      refine ⟨next, ?_, nextAt, isStates⟩
      show (decoder.decodeField len).bind _ = _
      rw [reads]
      rfl
  | run runlen => exact decodeRunAt_spec at_ short shows_ inside
  | channelRun channel runlen => exact decodeRunAt_spec at_ short shows_ inside

/-- The induction over the items that are read. -/
theorem readAll_spec (items : List Item) : forall {decoder : Decoder} {place : Nat}, At words place decoder ->
    Shorts decoder.states items -> Shows words place (written decoder.states items).1 ->
    place + (written decoder.states items).1.length + 32 ≤ 32 * words.length ->
    Exists fun last => decoder.readAll (items.map Item.kind) = some (items.map Item.value, last) ∧
      last.states = (written decoder.states items).2 := by
  induction items with
  | nil => exact fun _ _ _ _ => ⟨_, rfl, rfl⟩
  | cons item items ih =>
      intro decoder place at_ shorts shows_ inside
      obtain ⟨shown, rest⟩ := shows_append.mp
        (show Shows words place (item.bits decoder.states ++ (written (item.after decoder.states) items).1) from shows_)
      have total : (written decoder.states (item :: items)).1.length =
          (item.bits decoder.states).length + (written (item.after decoder.states) items).1.length := List.length_append
      obtain ⟨next, stepped, nextAt, isNext⟩ := decoderStep_spec at_ shorts.1 shown (by omega)
      obtain ⟨last, reads, isLast⟩ := ih nextAt (by rw [isNext]; exact shorts.2) (by rw [isNext]; exact rest)
        (by rw [isNext]; omega)
      rw [isNext] at isLast
      refine ⟨last, ?_, isLast⟩
      rw [List.map_cons, List.map_cons, Decoder.readAll, stepped, Option.bind_eq_bind, Option.bind_some]
      dsimp only
      rw [reads]
      rfl

end Runs

theorem written_append (before after : List Item) : forall states : Place -> CommonState,
    (written states (before ++ after)).1 = (written states before).1 ++
      (written (written states before).2 after).1 := by
  induction before with
  | nil => exact fun _ => rfl
  | cons item before ih =>
      intro states
      show item.bits states ++ (written (item.after states) (before ++ after)).1 = _
      rw [ih, <- List.append_assoc]
      rfl

/-- What is written, in whatever buffers, is read in whatever chunks: all fields and runs come back in order, and behind
each of them reader and writer have the same states. -/
theorem bit_io (sizes : Nat -> Nat) (room : Nat) (items : List Item) (positive : forall buffer, 0 < sizes buffer)
    (few : Meets (Encoder.step sizes) (fun _ => Few) [] (.start room) items) :
    Exists fun last => Exists fun flushed => run (Encoder.step sizes) (.start room) items = some last ∧
      last.flush sizes = some flushed ∧ forall chunks : List (List (BitVec 32)),
        (forall chunk, chunk ∈ chunks -> chunk ≠ []) ->
        chunks.flatten = flushed.words -> Exists fun begun => initDecodeIo chunks = some begun ∧
          forall before after, items = before ++ after -> Exists fun encoder => Exists fun decoder =>
            run (Encoder.step sizes) (.start room) before = some encoder ∧
              begun.readAll (before.map Item.kind) = some (before.map Item.value, decoder) ∧
              decoder.states = encoder.states := by
  obtain ⟨shorts, last, ran, holds, _⟩ := run_spec positive items [] (.start room) [] (holds_start room) few
  obtain ⟨flushed, flushes, shows_, enough⟩ := flush_spec positive holds
  refine ⟨last, flushed, ran, flushes, fun chunks filled isWords => ?_⟩
  obtain ⟨begun, begins, begunAt, isBegun⟩ := initDecodeIo_spec filled (by rw [isWords]; omega)
  refine ⟨begun, begins, fun before after split => ?_⟩
  subst split
  obtain ⟨beforeShorts, encoder, ranBefore, _, isStates⟩ :=
    run_spec positive before [] (.start room) [] (holds_start room)
    few.of_append
  rw [List.nil_append, written_append] at shows_ enough
  rw [isWords] at begunAt
  have sameStart : begun.states = (Encoder.start room).states := isBegun
  obtain ⟨decoder, reads, isDecoder⟩ := readAll_spec before begunAt (by rw [sameStart]; exact beforeShorts)
    (by rw [sameStart]; exact (shows_append.mp shows_).1)
    (by rw [sameStart]; rw [List.length_append] at enough; omega)
  exact ⟨encoder, decoder, ranBefore, reads, by rw [isDecoder, isStates, sameStart]⟩

instance (encoder : Encoder) (item : Item) : Decidable (Few encoder item) :=
  match item with
  | .field _ _ _ _ _ => isTrue trivial
  | .run runlen => inferInstanceAs (Decidable ((runHits runlen runlen (encoder.states .rgb)).1 < 32))
  | .channelRun channel runlen =>
      inferInstanceAs (Decidable ((runHits runlen runlen (encoder.states (.channel channel))).1 < 32))

/-- Runs of the plane and of a channel between fields, in buffers of one word and in any chunks. -/
theorem bit_io_mixed : Exists fun last => Exists fun flushed =>
    run (Encoder.step fun _ => 1) (.start 0) [.run 5, .field 5 3 (by decide) (by decide) (by decide),
      .channelRun 0 40, .run 0,
      .field 0x7fffffff 31 (by decide) (by decide) (by decide), .channelRun 0 7] = some last ∧
      last.flush (fun _ => 1) = some flushed ∧ forall chunks : List (List (BitVec 32)),
        (forall chunk, chunk ∈ chunks -> chunk ≠ []) -> chunks.flatten = flushed.words ->
        Exists fun begun => initDecodeIo chunks = some begun ∧ forall before after,
          [.run 5, .field 5 3 (by decide) (by decide) (by decide), .channelRun 0 40, .run 0,
            .field 0x7fffffff 31 (by decide) (by decide) (by decide), .channelRun 0 7] = before ++ after ->
          Exists fun encoder => Exists fun decoder => run (Encoder.step fun _ => 1) (.start 0) before = some encoder ∧
            begun.readAll (before.map Item.kind) = some (before.map Item.value, decoder) ∧
              decoder.states = encoder.states := by
  have few : forall (_ : List Item) (encoder : Encoder) (item : Item), decide (Few encoder item) = true ->
      Few encoder item :=
    fun _ _ _ checked => of_decide_eq_true checked
  refine bit_io (fun _ => 1) 0 _ (fun _ => by decide) (Meets.of_check few _ _ _ ?_)
  decide +kernel

end BitIo
end Quic
end Spice
