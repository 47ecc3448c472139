import Spice.Quic.BitIo

namespace Spice
namespace Quic
namespace Golomb

open Lib BitIo

/-!
# The adaptive codes of QUIC

A value of `bpc` bits has a Golomb-Rice codeword for every code number: its high bits in unary and
its low bits behind them.  Where the unary part would be too long, the value is a number behind
zeros only.  The code of a value is the best one of the bucket of its context, and the counters of
a bucket say how long its values would have been with each code.

The rows of `quic_tmpl.c` and `quic_rgb_tmpl.c` are sequences of fields, runs, values and updates
of a bucket.  The contexts and the places of updates depend on what was coded before.
-/

/-! ## The families of codes -/

inductive Family
  | bpc8
  | bpc5
deriving DecidableEq, Repr

def DEFmaxclen : Nat := 26

def bppmask (ones : Nat) : Nat := 2 ^ ones - 1

/-- The loop of `ceil_log_2`. -/
def halvings : Nat -> Nat -> Nat
  | 0, _ => 0
  | fuel + 1, val => if val >>> 1 = 0 then 0 else halvings fuel (val >>> 1) + 1

/-- `ceil_log_2` of what is not zero. -/
def ceilLog2 (val : Nat) : Nat := if val = 1 then 0 else 1 + halvings val (val - 1)

namespace Family

variable (family : Family) (l : Nat)

def bpc : Family -> Nat
  | bpc8 => 8
  | bpc5 => 5

/-! What `family_init` has for a code number. -/

def altprefixlen : Nat := if bppmask (family.bpc - l) < DEFmaxclen - family.bpc then bppmask (family.bpc - l)
    else DEFmaxclen - family.bpc

def nGRcodewords : Nat := family.altprefixlen l <<< l

def altcodewords : Nat := bppmask family.bpc + 1 - family.nGRcodewords l

def notGRsuffixlen : Nat := ceilLog2 (family.altcodewords l)

def notGRcwlen : Nat := family.altprefixlen l + family.notGRsuffixlen l

def notGRprefixmask : Nat := bppmask (32 - family.altprefixlen l)

/-- `golomb_coding_slow`, whose results `golomb_coding` looks up. -/
def golombCoding (n : Nat) : Nat × Nat :=
  if n < family.nGRcodewords l then (1 <<< l ||| (n &&& bppmask l), (n >>> l) + l + 1)
  else (n - family.nGRcodewords l, family.notGRcwlen l)

end Family

/-- The leading zeros of a byte. -/
def lzeroes : List Nat :=
  [8, 7] ++ List.replicate 2 6 ++ List.replicate 4 5 ++ List.replicate 8 4 ++ List.replicate 16 3 ++
    List.replicate 32 2 ++
    List.replicate 64 1 ++ List.replicate 128 0

def cntLZeroes (bits : Nat) : Nat :=
  if bits &&& 0xff800000 ≠ 0 then lzeroes.getD (bits >>> 24) 0
  else if bits &&& 0xffff8000 ≠ 0 then 8 + lzeroes.getD ((bits >>> 16) &&& 0xff) 0
  else if bits &&& 0xffffff80 ≠ 0 then 16 + lzeroes.getD ((bits >>> 8) &&& 0xff) 0
  else 24 + lzeroes.getD (bits &&& 0xff) 0

/-- `golomb_decoding`: a value and the length of its codeword. -/
def Family.golombDecoding (family : Family) (l bits : Nat) : Nat × Nat :=
  if family.notGRprefixmask l < bits then
    let zeroes := cntLZeroes bits
    let cwlen := zeroes + 1 + l
    (zeroes <<< l ||| ((bits >>> (32 - cwlen)) &&& bppmask l), cwlen)
  else
    let cwlen := family.notGRcwlen l
    (family.nGRcodewords l + ((bits >>> (32 - cwlen)) &&& bppmask (family.notGRsuffixlen l)), cwlen)

/-! ## Buckets -/

structure Bucket (family : Family) where
  pcounters : Fin family.bpc -> BitVec 32
  bestcode : Fin family.bpc

section Buckets

variable {family : Family}

theorem Family.bpc_pos (family : Family) : 0 < family.bpc := by cases family <;> decide

/-- The loop of `update_model` over the codes below a place. -/
def bestBelow (pcounters : Fin family.bpc -> BitVec 32) : forall i : Nat, i ≤ family.bpc -> Fin family.bpc ->
    Fin family.bpc
  | 0, _, bestcode => bestcode
  | i + 1, inside, bestcode =>
      bestBelow pcounters i (Nat.le_of_succ_le inside)
        (if pcounters ⟨i, inside⟩ < pcounters bestcode then ⟨i, inside⟩ else bestcode)

/-- `update_model`: the counters get the lengths that the value has in each code, and are halved when the least of them
is too large. -/
def Bucket.updateModel (bucket : Bucket family) (curval wmTrigger : Nat) : Bucket family :=
  let pcounters := fun i => bucket.pcounters i + BitVec.ofNat 32 (family.golombCoding i curval).2
  let bestcode := bestBelow pcounters (family.bpc - 1) (Nat.sub_le _ _)
    ⟨family.bpc - 1, Nat.sub_lt family.bpc_pos (by decide)⟩
  ⟨if wmTrigger < (pcounters bestcode).toNat then fun i => pcounters i >>> 1 else pcounters, bestcode⟩

end Buckets

/-- The buckets of each channel. -/
abbrev Models (family : Family) : Type := Nat -> Nat -> Bucket family

/-- The buckets that an image starts with. -/
def Models.init (family : Family) : Models family :=
  fun _ _ => ⟨fun _ => 0, ⟨family.bpc - 1, Nat.sub_lt family.bpc_pos (by decide)⟩⟩

section Steps

variable {family : Family} (bucketsPtrs : Nat -> Nat) (models : Models family)

def findBucket (channel val : Nat) : Option (Bucket family) :=
  if val < 2 ^ family.bpc then some (models channel (bucketsPtrs val)) else none

/-- The model of a channel is updated with a value in its context. -/
def updated (channel context curval wmTrigger : Nat) : Option (Models family) := do
  let bucket <- findBucket bucketsPtrs models channel context
  some (Function.update models channel
    (Function.update (models channel) (bucketsPtrs context) (bucket.updateModel curval wmTrigger)))

end Steps

/-! ## What rows are coded as -/

/-- A field or a run, a value in its context, or an update. -/
inductive Op (family : Family)
  | item (item : Item)
  | value (channel context value : Nat) (known : context < 2 ^ family.bpc) (fits : value < 2 ^ family.bpc)
  | update (channel context curval wmTrigger : Nat) (known : context < 2 ^ family.bpc)

/-- What is known of an operation before it is read. -/
inductive OpKind
  | item (kind : Kind)
  | value (channel context : Nat)
  | update (channel context curval wmTrigger : Nat)

namespace Op

variable {family : Family}

def kind : Op family -> OpKind
  | .item entry => .item entry.kind
  | .value channel context _ _ _ => .value channel context
  | .update channel context curval wmTrigger _ => .update channel context curval wmTrigger

/-- What reading an operation is to return; an update reads nothing. -/
def read : Op family -> Option Int
  | .item entry => some entry.value
  | .value _ _ symbol _ _ => some symbol
  | .update _ _ _ _ _ => none

def Few (writer : Encoder × Models family) : Op family -> Prop
  | .item entry => BitIo.Few writer.1 entry
  | _ => True

end Op

section Steps

variable {family : Family} (sizes : Nat -> Nat) (bucketsPtrs : Nat -> Nat)

def write : Encoder × Models family -> Op family -> Option (Encoder × Models family)
  | (encoder, models), .item item => do
      let encoder <- encoder.step sizes item
      some (encoder, models)
  | (encoder, models), .value channel context value _ _ => do
      let bucket <- findBucket bucketsPtrs models channel context
      let (codeword, codewordlen) := family.golombCoding bucket.bestcode value
      let encoder <- encoder.encode sizes (BitVec.ofNat 32 codeword) codewordlen
      some (encoder, models)
  | (encoder, models), .update channel context curval wmTrigger _ => do
      let models <- updated bucketsPtrs models channel context curval wmTrigger
      some (encoder, models)

def read : Decoder × Models family -> OpKind -> Option (Option Int × Decoder × Models family)
  | (decoder, models), .item kind => do
      let (value, decoder) <- decoder.step kind
      some (some value, decoder, models)
  | (decoder, models), .value channel context => do
      let bucket <- findBucket bucketsPtrs models channel context
      let (value, codewordlen) := family.golombDecoding bucket.bestcode decoder.ioWord.toNat
      let decoder <- decoder.decodeEatbits codewordlen
      some (some ((value % 256 : Nat) : Int), decoder, models)
  | (decoder, models), .update channel context curval wmTrigger => do
      let models <- updated bucketsPtrs models channel context curval wmTrigger
      some (none, decoder, models)

/-- Some operations are read, each of them known by what was read before. -/
def readAll (kinds : List (Option Int) -> OpKind) :
    Nat -> List (Option Int) -> Decoder × Models family -> Option (List (Option Int) × Decoder × Models family)
  | 0, past, reader => some (past, reader)
  | count + 1, past, reader => do
      let (value, reader) <- read bucketsPtrs reader (kinds past)
      readAll kinds count (past ++ [value]) reader

end Steps

/-- The operations are those that follow from what was read. -/
def Follows {family : Family} (kinds : List (Option Int) -> OpKind) : List (Option Int) -> List (Op family) -> Prop
  | _, [] => True
  | past, op :: ops => kinds past = op.kind ∧ Follows kinds (past ++ [op.read]) ops

/-! ## A codeword is decoded -/

theorem bppmask_and (value ones : Nat) : value &&& bppmask ones = value % 2 ^ ones :=
  Nat.and_two_pow_sub_one_eq_mod value ones

/-- The mask of all bits but some low ones. -/
theorem mask_eq_zero {bits low : Nat} (inside : bits < 2 ^ 32) (few : low ≤ 32) :
    bits &&& (bppmask (32 - low) * 2 ^ low) = 0 <-> bits < 2 ^ low := by
  have remainder : (bits &&& (bppmask (32 - low) * 2 ^ low)) % 2 ^ low = 0 := by
    rw [Nat.and_mod_two_pow, Nat.mul_mod_left, Nat.and_zero]
  have less : bits / 2 ^ low < 2 ^ (32 - low) := by
    rw [Nat.div_lt_iff_lt_mul (Nat.two_pow_pos low), <- Nat.pow_add, Nat.sub_add_cancel few]
    exact inside
  have quotient : (bits &&& (bppmask (32 - low) * 2 ^ low)) / 2 ^ low = bits / 2 ^ low := by
    rw [Nat.and_div_two_pow, Nat.mul_div_cancel _ (Nat.two_pow_pos low), bppmask_and, Nat.mod_eq_of_lt less]
  rw [<- Nat.div_eq_zero_iff_lt (Nat.two_pow_pos low), <- quotient]
  constructor
  · intro isZero
    rw [isZero, Nat.zero_div]
  · intro isZero
    rw [<- Nat.div_add_mod (bits &&& _) (2 ^ low), isZero, remainder, Nat.mul_zero]

theorem lzeroes_eq : forall byte, byte < 256 -> forall zeros, zeros < 9 -> (zeros = 8 ∨ 2 ^ (7 - zeros) ≤ byte) ->
    byte < 2 ^ (8 - zeros) -> lzeroes.getD byte 0 = zeros := by
  decide +kernel

/-- The table says the zeros of a byte, where the bytes above it are zero. -/
theorem lzeroes_shift {bits zeros : Nat} (before low : Nat) (whole : before + 8 + low = 32) (few : before ≤ zeros)
    (enough : zeros ≤ before + 8) (from_ : 2 ^ (31 - zeros) ≤ bits) (below : bits < 2 ^ (32 - zeros)) :
    before + lzeroes.getD (bits >>> low) 0 = zeros ∧ (bits >>> low) &&& 0xff = bits >>> low := by
  have less : bits / 2 ^ low < 2 ^ (8 - (zeros - before)) := by
    rw [Nat.div_lt_iff_lt_mul (Nat.two_pow_pos low), <- Nat.pow_add]
    exact Nat.lt_of_lt_of_le below (Nat.pow_le_pow_right (by decide) (by omega))
  have byte : bits / 2 ^ low < 256 :=
    Nat.lt_of_lt_of_le less (Nat.pow_le_pow_right (n := 2) (by decide) (Nat.sub_le 8 _))
  have top : zeros - before = 8 ∨ 2 ^ (7 - (zeros - before)) ≤ bits / 2 ^ low := by
    rcases Nat.eq_or_lt_of_le enough with all | some_
    · exact .inl (by omega)
    · refine .inr ((Nat.le_div_iff_mul_le (Nat.two_pow_pos low)).mpr (Nat.le_trans ?_ from_))
      rw [<- Nat.pow_add]
      exact Nat.pow_le_pow_right (by decide) (by omega)
  rw [Nat.shiftRight_eq_div_pow, lzeroes_eq _ byte _ (by omega) top less]
  exact ⟨Nat.add_sub_cancel' few, (bppmask_and _ 8).trans (Nat.mod_eq_of_lt byte)⟩

theorem cntLZeroes_eq {bits zeros : Nat} (few : zeros < 32) (from_ : 2 ^ (31 - zeros) ≤ bits)
    (below : bits < 2 ^ (32 - zeros)) :
    cntLZeroes bits = zeros := by
  have inside : bits < 2 ^ 32 := Nat.lt_of_lt_of_le below (Nat.pow_le_pow_right (by decide) (Nat.sub_le 32 zeros))
  have masked : forall {low : Nat}, low ≤ 32 -> (bits &&& (bppmask (32 - low) * 2 ^ low) = 0 <-> 32 - low ≤ zeros) := by
    intro low small
    rw [mask_eq_zero inside small]
    constructor
    · intro less
      have smaller := (Nat.pow_lt_pow_iff_right (a := 2) (by decide)).mp (Nat.lt_of_le_of_lt from_ less)
      omega
    · exact fun enough => Nat.lt_of_lt_of_le below (Nat.pow_le_pow_right (by decide) (by omega))
  have first : bits &&& 0xff800000 = 0 <-> 9 ≤ zeros := masked (show 23 ≤ 32 by decide)
  have second : bits &&& 0xffff8000 = 0 <-> 17 ≤ zeros := masked (show 15 ≤ 32 by decide)
  have third : bits &&& 0xffffff80 = 0 <-> 25 ≤ zeros := masked (show 7 ≤ 32 by decide)
  unfold cntLZeroes
  simp only [ne_eq, first, second, third]
  split
  · rw [<- Nat.zero_add (lzeroes.getD _ 0)]
    exact (lzeroes_shift 0 24 rfl (Nat.zero_le _) (by omega) from_ below).1
  · split
    · obtain ⟨isZeros, isByte⟩ := lzeroes_shift 8 16 rfl (by omega) (by omega) from_ below
      rw [isByte, isZeros]
    · split
      · obtain ⟨isZeros, isByte⟩ := lzeroes_shift 16 8 rfl (by omega) (by omega) from_ below
        rw [isByte, isZeros]
      · obtain ⟨isZeros, isByte⟩ := lzeroes_shift 24 0 rfl (by omega) (by omega) from_ below
        rw [Nat.shiftRight_zero] at isZeros isByte
        rw [isByte, isZeros]

/-- What `family_init` computes for a code number. -/
theorem codes_fit : forall (family : Family) (l : Nat), l < family.bpc -> 0 < family.altprefixlen l ∧
    family.altprefixlen l + l < 32 ∧ family.altprefixlen l + family.notGRsuffixlen l < 32 ∧
    2 ^ family.bpc ≤ family.nGRcodewords l + 2 ^ family.notGRsuffixlen l := by
  have all : forall family, family ∈ [Family.bpc8, .bpc5] -> forall l, l < family.bpc -> 0 < family.altprefixlen l ∧
      family.altprefixlen l + l < 32 ∧ family.altprefixlen l + family.notGRsuffixlen l < 32 ∧
      2 ^ family.bpc ≤ family.nGRcodewords l + 2 ^ family.notGRsuffixlen l := by
    decide
  exact fun family => all family (by cases family <;> decide)

section Codes

variable {family : Family} {l n : Nat}

/-- The code of a value is decoded from every word that starts with it. -/
theorem golombCoding_spec (inside : l < family.bpc) (fits : n < 2 ^ family.bpc) :
    0 < (family.golombCoding l n).2 ∧ (family.golombCoding l n).2 < 32 ∧
      (family.golombCoding l n).1 < 2 ^ (family.golombCoding l n).2 ∧
      forall {bits : Nat}, bits / 2 ^ (32 - (family.golombCoding l n).2) = (family.golombCoding l n).1 ->
        family.golombDecoding l bits = (n, (family.golombCoding l n).2) := by
  obtain ⟨pos, unary, short, enough⟩ := codes_fit family l inside
  have isCodewords : family.nGRcodewords l = family.altprefixlen l * 2 ^ l := Nat.shiftLeft_eq _ _
  have lowLess : n % 2 ^ l < 2 ^ l := Nat.mod_lt _ (Nat.two_pow_pos l)
  unfold Family.golombCoding
  split
  · rename_i few
    rw [isCodewords, <- Nat.div_lt_iff_lt_mul (Nat.two_pow_pos l)] at few
    have isCode : 1 <<< l ||| (n &&& bppmask l) = 2 ^ l + n % 2 ^ l := by
      rw [bppmask_and, <- Nat.shiftLeft_add_eq_or_of_lt lowLess, Nat.shiftLeft_eq, Nat.one_mul]
    have isValue : n / 2 ^ l * 2 ^ l + n % 2 ^ l = n := Nat.div_add_mod' n (2 ^ l)
    rw [isCode, Nat.shiftRight_eq_div_pow]
    generalize n / 2 ^ l = high, n % 2 ^ l = low at few lowLess isValue ⊢
    dsimp only
    refine ⟨by omega, by omega, ?_, fun {bits} isTop => ?_⟩
    · have double : 2 ^ (l + 1) ≤ 2 ^ (high + l + 1) := Nat.pow_le_pow_right (by decide) (by omega)
      rw [Nat.pow_succ] at double
      omega
    · have from_ : 2 ^ (31 - high) ≤ bits := by
        have below : 2 ^ l ≤ bits / 2 ^ (32 - (high + l + 1)) := by omega
        rw [Nat.le_div_iff_mul_le (Nat.two_pow_pos _), <- Nat.pow_add] at below
        rwa [show 31 - high = l + (32 - (high + l + 1)) by omega]
      have below : bits < 2 ^ (32 - high) := by
        have above : bits / 2 ^ (32 - (high + l + 1)) < 2 ^ (l + 1) := by rw [Nat.pow_succ]; omega
        rw [Nat.div_lt_iff_lt_mul (Nat.two_pow_pos _), <- Nat.pow_add] at above
        rwa [show 32 - high = l + 1 + (32 - (high + l + 1)) by omega]
      have isUnary : family.notGRprefixmask l < bits :=
        Nat.lt_of_lt_of_le (Nat.sub_lt (Nat.two_pow_pos _) (by decide))
          (Nat.le_trans (Nat.pow_le_pow_right (by decide) (by omega)) from_)
      unfold Family.golombDecoding
      rw [if_pos isUnary, cntLZeroes_eq (by omega) from_ below]
      dsimp only
      rw [Nat.add_right_comm, Nat.shiftRight_eq_div_pow, isTop, bppmask_and, Nat.add_mod_left, Nat.mod_eq_of_lt lowLess,
        <- Nat.shiftLeft_add_eq_or_of_lt lowLess, Nat.shiftLeft_eq, isValue]
  · rename_i many
    have less : n - family.nGRcodewords l < 2 ^ family.notGRsuffixlen l := by omega
    unfold Family.notGRcwlen
    dsimp only
    refine ⟨by omega, short, ?_, fun {bits} isTop => ?_⟩
    · exact Nat.lt_of_lt_of_le less (Nat.pow_le_pow_right (by decide) (Nat.le_add_left _ _))
    · have below : bits < 2 ^ (32 - family.altprefixlen l) := by
        rw [<- isTop, Nat.div_lt_iff_lt_mul (Nat.two_pow_pos _), <- Nat.pow_add] at less
        rwa [show 32 - family.altprefixlen l =
          family.notGRsuffixlen l + (32 - (family.altprefixlen l + family.notGRsuffixlen l)) by omega]
      unfold Family.golombDecoding
      rw [if_neg (show ¬family.notGRprefixmask l < bits from Nat.not_lt.mpr (Nat.le_sub_one_of_lt below))]
      dsimp only
      unfold Family.notGRcwlen
      rw [Nat.shiftRight_eq_div_pow, isTop, bppmask_and, Nat.mod_eq_of_lt less,
        Nat.add_sub_cancel' (Nat.not_lt.mp many)]

end Codes

/-! ## Operations are read as they were written -/

section Rows

variable {family : Family} {sizes : Nat -> Nat} (bucketsPtrs : Nat -> Nat)

/-- A field is the top of the window, and is eaten. -/
theorem field_of_window {decoder next : Decoder} {word : BitVec 32} {len : Nat}
    (reads : decoder.decodeField len = some (word, next)) :
    decoder.ioWord.toNat / 2 ^ (32 - len) = word.toNat ∧ decoder.decodeEatbits len = some next := by
  rcases Option.bind_eq_some_iff.mp reads with ⟨top, isTop, rest⟩
  rcases Option.bind_eq_some_iff.mp rest with ⟨after, eats, isNext⟩
  cases isNext
  unfold shr at isTop
  split at isTop
  · cases isTop
    exact ⟨by rw [BitVec.toNat_ushiftRight, Nat.shiftRight_eq_div_pow], eats⟩
  · cases isTop

/-- What is written for one operation, and that a reader with the same models reads it. -/
theorem op_spec (positive : forall buffer, 0 < sizes buffer) {encoder : Encoder} {bits : List Bool}
    (models : Models family)
    (holds : Holds encoder bits) (op : Op family) (few : op.Few (encoder, models)) :
    Exists fun next => Exists fun more => write sizes bucketsPtrs (encoder, models) op = some next ∧
      Holds next.1 (bits ++ more) ∧ forall {words : List (BitVec 32)} {place : Nat} {decoder : Decoder},
        At words place decoder -> decoder.states = encoder.states -> Shows words place more ->
        place + more.length + 32 ≤ 32 * words.length ->
        Exists fun after => read bucketsPtrs (decoder, models) op.kind = some (op.read, after, next.2) ∧
          At words (place + more.length) after ∧ after.states = next.1.states := by
  cases op with
  | item item =>
      have short := short_of_few few
      rcases step_spec positive holds short with ⟨next, stepped, nextHolds, isStates⟩
      refine ⟨(next, models), _, ?_, nextHolds, fun {words place decoder} at_ same shows_ inside => ?_⟩
      · show (encoder.step sizes item).bind _ = _
        rw [stepped]
        rfl
      · rw [<- same] at short shows_ inside isStates ⊢
        rcases decoderStep_spec at_ short shows_ inside with ⟨after, reads, afterAt, isAfter⟩
        refine ⟨after, ?_, afterAt, isAfter.trans isStates.symm⟩
        show (decoder.step item.kind).bind _ = _
        rw [reads]
        rfl
  | value channel context value known fits =>
      have found : findBucket bucketsPtrs models channel context = some (models channel (bucketsPtrs context)) :=
        if_pos known
      generalize isBucket : models channel (bucketsPtrs context) = bucket at found
      rcases golombCoding_spec bucket.bestcode.isLt fits with ⟨some_, short, codeFits, decodes⟩
      have isCode : (BitVec.ofNat 32 (family.golombCoding bucket.bestcode value).1).toNat =
          (family.golombCoding bucket.bestcode value).1 :=
        Nat.mod_eq_of_lt (Nat.lt_of_lt_of_le codeFits (Nat.pow_le_pow_right (by decide) (Nat.le_of_lt short)))
      rcases encode_spec positive holds some_ short (by rw [isCode]; exact codeFits)
        with ⟨next, encodes, nextHolds, isStates⟩
      refine ⟨(next, models), _, ?_, nextHolds, fun {words place decoder} at_ same shows_ inside => ?_⟩
      · show (findBucket bucketsPtrs models channel context).bind _ = _
        rw [found, Option.bind_some]
        dsimp only
        rw [encodes]
        rfl
      · rw [length_fieldBits] at inside ⊢
        rcases decodeField_spec at_ some_ short (by rw [isCode]; exact codeFits) shows_ inside
          with ⟨after, reads, afterAt, isAfter⟩
        rcases field_of_window reads with ⟨isTop, eats⟩
        rw [isCode] at isTop
        have byte : value % 256 = value :=
          Nat.mod_eq_of_lt (Nat.lt_of_lt_of_le fits (by cases family <;> decide))
        refine ⟨after, ?_, afterAt, (isAfter.trans same).trans isStates.symm⟩
        show (findBucket bucketsPtrs models channel context).bind _ = _
        rw [found, Option.bind_some, decodes isTop]
        dsimp only
        rw [eats, byte]
        rfl
  | update channel context curval wmTrigger known =>
      have found : findBucket bucketsPtrs models channel context = some (models channel (bucketsPtrs context)) :=
        if_pos known
      have isUpdated : Exists fun after => updated bucketsPtrs models channel context curval wmTrigger =
          some after := by
        rw [updated, found]
        exact ⟨_, rfl⟩
      rcases isUpdated with ⟨after, isAfter⟩
      refine ⟨(encoder, after), [], ?_,
        by rwa [List.append_nil], fun {words place decoder} at_ same _ _ => ⟨decoder, ?_, at_, same⟩⟩
      · show (updated bucketsPtrs models channel context curval wmTrigger).bind _ = _
        rw [isAfter]
        rfl
      · show (updated bucketsPtrs models channel context curval wmTrigger).bind _ = _
        rw [isAfter]
        rfl

/-- The induction over the row. -/
theorem ops_spec (positive : forall buffer, 0 < sizes buffer) (ops : List (Op family)) :
    forall (past : List (Op family)) (encoder : Encoder) (models : Models family)
    (bits : List Bool), Holds encoder bits ->
      Meets (write sizes bucketsPtrs) (fun _ => Op.Few) past (encoder, models) ops ->
      Exists fun last => Exists fun more => run (write sizes bucketsPtrs) (encoder, models) ops = some last ∧
        Holds last.1 (bits ++ more) ∧ forall {words : List (BitVec 32)} {place : Nat} {decoder : Decoder},
          At words place decoder -> decoder.states = encoder.states -> Shows words place more ->
          place + more.length + 32 ≤ 32 * words.length -> forall kinds before, Follows kinds before ops ->
          Exists fun after => readAll bucketsPtrs kinds ops.length before (decoder, models) =
            some (before ++ ops.map Op.read, after, last.2) ∧ after.states = last.1.states := by
  induction ops with
  | nil =>
      intro past encoder models bits holds _
      refine ⟨(encoder, models), [], rfl, by rwa [List.append_nil], fun _ same _ _ _ before _ => ⟨_, ?_, same⟩⟩
      rw [List.map_nil, List.append_nil]
      rfl
  | cons op ops ih =>
      intro past encoder models bits holds meets
      rcases op_spec bucketsPtrs positive models holds op meets.1 with ⟨next, more, written_, nextHolds, readsOne⟩
      rcases ih _ next.1 next.2 _ nextHolds (meets.2 next written_) with ⟨last, rest, ran, lastHolds, readsRest⟩
      rw [List.append_assoc] at lastHolds
      refine ⟨last, more ++ rest, (run_cons_of_some _ _ written_).trans ran, lastHolds, ?_⟩
      intro words place decoder at_ same shows_ inside kinds before follows
      rw [List.length_append] at inside
      rcases shows_append.mp shows_ with ⟨showsOne, showsRest⟩
      rcases readsOne at_ same showsOne (by omega) with ⟨middle, reads, middleAt, isMiddle⟩
      rcases readsRest middleAt isMiddle showsRest (by omega) kinds _ follows.2 with ⟨after, readsAfter, isAfter⟩
      refine ⟨after, ?_, isAfter⟩
      rw [List.append_assoc] at readsAfter
      show (read bucketsPtrs (decoder, models) (kinds before)).bind _ = _
      rw [follows.1, reads, Option.bind_some]
      exact readsAfter

end Rows

/-- Rows are read as they were written, in whatever buffers and chunks: a reader that starts with the models of the
writer, and that does at each place what follows from what it read before, reads the same fields, runs and values, and
ends with the models and the states of the writer. -/
theorem rows_read {family : Family} (sizes : Nat -> Nat) (bucketsPtrs : Nat -> Nat) (room : Nat)
    (models : Models family)
    (ops : List (Op family)) (positive : forall buffer, 0 < sizes buffer)
    (few : Meets (write sizes bucketsPtrs) (fun _ => Op.Few) [] (.start room, models) ops) :
    Exists fun last => Exists fun flushed => run (write sizes bucketsPtrs) (.start room, models) ops = some last ∧
      last.1.flush sizes = some flushed ∧ forall chunks : List (List (BitVec 32)),
        (forall chunk, chunk ∈ chunks -> chunk ≠ []) ->
        chunks.flatten = flushed.words -> Exists fun begun => initDecodeIo chunks = some begun ∧
          forall kinds, Follows kinds [] ops -> Exists fun after =>
            readAll bucketsPtrs kinds ops.length [] (begun, models) = some (ops.map Op.read, after, last.2) ∧
              after.states = last.1.states := by
  rcases ops_spec bucketsPtrs positive ops [] (.start room) models [] (holds_start room) few
    with ⟨last, more, ran, holds, reads⟩
  rw [List.nil_append] at holds
  rcases flush_spec positive holds with ⟨flushed, flushes, shows_, enough⟩
  refine ⟨last, flushed, ran, flushes, fun chunks filled isWords => ?_⟩
  rcases initDecodeIo_spec filled (by rw [isWords]; omega) with ⟨begun, begins, begunAt, isBegun⟩
  rw [isWords] at begunAt
  exact ⟨begun, begins, fun kinds follows => reads begunAt isBegun shows_ (by omega) kinds [] follows⟩

instance {family : Family} (writer : Encoder × Models family) (op : Op family) : Decidable (op.Few writer) :=
  match op with
  | .item entry => inferInstanceAs (Decidable (BitIo.Few writer.1 entry))
  | .value _ _ _ _ _ => isTrue trivial
  | .update _ _ _ _ _ => isTrue trivial

/-- A field, a long value in each of two channels, an update, and a run between values. -/
def mixedRow : List (Op .bpc8) :=
  [.item (.field 5 3 (by decide) (by decide) (by decide)), .value 0 0 255 (by decide) (by decide),
    .update 0 0 255 110 (by decide),
    .value 1 0 200 (by decide) (by decide), .item (.run 5), .value 0 0 3 (by decide) (by decide)]

/-- The row above, in chunks of one word. -/
theorem rows_read_mixed : Exists fun begun => Exists fun last =>
    readAll id (fun past => (mixedRow.map Op.kind).getD past.length (.value 0 0)) 6 [] (begun, Models.init .bpc8) =
      some ([some 5, some 255, none, some 200, some 5, some 3], last) := by
  have checked : forall (_ : List (Op .bpc8)) (writer : Encoder × Models .bpc8) (op : Op .bpc8),
      decide (op.Few writer) = true -> op.Few writer :=
    fun _ _ _ => of_decide_eq_true
  rcases rows_read (fun _ => 1) id 0 (Models.init .bpc8) mixedRow (fun _ => by decide)
    (Meets.of_check checked _ _ _ (by decide +kernel)) with ⟨last, flushed, _, _, reads⟩
  have isWords : (flushed.words.map fun word => [word]).flatten = flushed.words := List.flatMap_singleton' flushed.words
  rcases reads _ (fun chunk member => by rcases List.mem_map.mp member with ⟨_, _, rfl⟩; exact List.cons_ne_nil _ _)
    isWords with ⟨begun, _, follows⟩
  rcases follows (fun past => (mixedRow.map Op.kind).getD past.length (.value 0 0))
    ⟨rfl, rfl, rfl, rfl, rfl, rfl, trivial⟩
    with ⟨after, isRead, _⟩
  exact ⟨begun, _, isRead⟩

end Golomb
end Quic
end Spice
