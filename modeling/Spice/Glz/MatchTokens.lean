import Spice.Glz.DecodeBounds
import Spice.Lib.Bytes
import Mathlib.Tactic.Ring

namespace Spice
namespace Glz
namespace MatchTokens

open Lib Bounds
open Lz.Bounds (readLen)

/-!
# The tokens of a match

`encode_match` writes a length, a pixel distance and an image distance with flags in
between, `get_encode_ref_size` estimates how many bytes that takes, and the decoder parses
them.  The estimate does not know the length, so it leaves out the bytes of a length
that does not fit the first byte; `do_match` asks for it only where there are none, or
where they make no difference.  It asks with the whole pixel distance; within an image one less
is written, which is a byte shorter where the whole distance is the first long one.

`glz_encode_tmpl.c` is compiled once for each kind of pixel.  The pixels behind a pointer
are the bytes of memory from there on.
-/

/-- The bytes from a pointer on. -/
abbrev Memory := Nat -> UInt8

inductive Template
  | plt
  | rgb16
  | rgb24
  | rgb32
  | rgbAlpha
  deriving DecidableEq, Repr

namespace Template

def encodePixel : Template -> Memory -> List UInt8
  | plt, pixel => [pixel 0]
  | rgb16, pixel => [pixel 1, pixel 0]
  | rgb24, pixel => [pixel 0, pixel 1, pixel 2]
  | rgb32, pixel => [pixel 0, pixel 1, pixel 2]
  | rgbAlpha, pixel => [pixel 3]

def maxRefEncodeSize : Template -> Nat
  | plt => 7
  | rgbAlpha => 7
  | rgb16 => 3
  | _ => 2

/-- The length of a match that is worth encoding, one less. -/
def encodeUnits : Template -> Nat -> Nat
  | rgb16, size => size / 2
  | rgb24, size => size / 3
  | rgb32, size => size / 3
  | _, size => size

/-- What is taken from the length before it is encoded. -/
def lenBias : Template -> Nat
  | rgb16 => 1
  | plt => 2
  | rgbAlpha => 2
  | _ => 0

end Template

def maxPixelShortDistance : Nat := 4096

def maxPixelMediumDistance : Nat := 131072

def maxPixelLongDistance : Nat := 33554432

def getEncodeRefSize (imageDist pixDist : Nat) : Nat :=
  if pixDist < maxPixelShortDistance then
    if imageDist < 64 then 3
    else if imageDist < 16384 then 4
    else if imageDist < 4194304 then 5
    else 6
  else
    (if imageDist = 0 then 3
      else if imageDist < 256 then 4
      else if imageDist < 65536 then 5
      else 6) + if pixDist < maxPixelMediumDistance then 0 else 1

/-- `encode`, of a value that is cast to `uint8_t`. -/
def byte (value : Nat) : UInt8 := UInt8.ofNat value

/-- The loop over the length behind the control byte. -/
def encodeLen (len : Nat) : List UInt8 :=
  if 255 ≤ len then byte 255 :: encodeLen (len - 255) else [byte len]
termination_by len
decreasing_by omega

/-- The rest of the pixel distance and the image distance with its control bits. -/
def encodePlace (imageDist pixDist : Nat) : List UInt8 :=
  if pixDist < maxPixelShortDistance then
    if imageDist < 64 then [byte (imageDist % 64)]
    else if imageDist < 16384 then [byte (2 ^ 6 + imageDist % 64), byte (imageDist / 2 ^ 6 % 256)]
    else if imageDist < 4194304 then
      [byte (2 ^ 7 + imageDist % 64), byte (imageDist / 2 ^ 6 % 256), byte (imageDist / 2 ^ 14 % 256)]
    else
      [byte (2 ^ 7 + 2 ^ 6 + imageDist % 64), byte (imageDist / 2 ^ 6 % 256), byte (imageDist / 2 ^ 14 % 256),
        byte (imageDist / 2 ^ 22 % 256)]
  else
    let longDistControl := if pixDist < maxPixelMediumDistance then 0 else 32
    (if imageDist = 0 then [byte (longDistControl + pixDist / 2 ^ 12 % 32)]
      else if imageDist < 256 then [byte (longDistControl + 2 ^ 6 + pixDist / 2 ^ 12 % 32), byte (imageDist % 256)]
      else if imageDist < 65536 then
        [byte (longDistControl + 2 ^ 7 + pixDist / 2 ^ 12 % 32), byte (imageDist % 256), byte (imageDist / 2 ^ 8 % 256)]
      else
        [byte (longDistControl + 2 ^ 7 + 2 ^ 6 + pixDist / 2 ^ 12 % 32), byte (imageDist % 256),
          byte (imageDist / 2 ^ 8 % 256), byte (imageDist / 2 ^ 16 % 256)]) ++
      if longDistControl ≠ 0 then [byte (pixDist / 2 ^ 17 % 256)] else []

def encodeMatch (imageDist pixDist len : Nat) : List UInt8 :=
  (if len < 7 then
    [if pixDist < maxPixelShortDistance then byte (len * 2 ^ 5 + pixDist % 16)
      else byte (len * 2 ^ 5 + 16 + pixDist % 16),
      byte (pixDist / 2 ^ 4 % 256)]
  else
    (if pixDist < maxPixelShortDistance then byte (7 * 2 ^ 5 + pixDist % 16)
      else byte (7 * 2 ^ 5 + 16 + pixDist % 16)) ::
      (encodeLen (len - 7) ++ [byte (pixDist / 2 ^ 4 % 256)])) ++ encodePlace imageDist pixDist

/-- The bytes of a length that does not fit the first byte. -/
def lenBytes (len : Nat) : Nat := if len < 7 then 0 else 1 + (len - 7) / 255

/-- The pixel distance that `compress_seg` encodes. -/
def biasedPixDist (imageDist pixDist : Nat) : Nat := if imageDist = 0 then pixDist - 1 else pixDist

/-- `do_match` takes a match of this length and place. -/
def PaysOff (template : Template) (imageDist pixDist len : Nat) : Prop :=
  template.maxRefEncodeSize < len ∨ ¬ len < template.encodeUnits (getEncodeRefSize imageDist pixDist) + 1

/-! ## The length -/

theorem toNat_byte {value : Nat} (small : value < 256) : (byte value).toNat = value := by
  rw [byte, UInt8.toNat_ofNat', Nat.mod_eq_of_lt small]

/-- The length comes back. -/
theorem readLen_encodeLen (len : Nat) : forall (start : UInt32) (rest : List UInt8),
    readLen start (encodeLen len ++ rest) = some (start + UInt32.ofNat len, rest) := by
  induction len using Nat.strongRecOn with
  | ind len ih =>
    intro start rest
    rw [encodeLen]
    by_cases long : 255 ≤ len
    · rw [if_pos long, List.cons_append, readLen, if_pos (show byte 255 = 255 from rfl), ih (len - 255) (by omega),
        UInt32.add_assoc]
      have total : (255 : UInt32) + UInt32.ofNat (len - 255) = UInt32.ofNat len := by
        rw [show (255 : UInt32) = UInt32.ofNat 255 from rfl, ← UInt32.ofNat_add, Nat.add_sub_cancel' long]
      rw [total]
    · have value := toNat_byte (show len < 256 by omega)
      have other : byte len ≠ 255 := fun same => long (by rw [← value, same]; exact le_refl _)
      have cast : (byte len).toUInt32 = UInt32.ofNat len := by
        apply UInt32.toNat_inj.mp
        rw [UInt8.toNat_toUInt32, value, UInt32.toNat_ofNat', Nat.mod_eq_of_lt (by omega)]
      rw [if_neg long, List.cons_append, List.nil_append, readLen, if_neg other, cast]

theorem length_encodeLen (len : Nat) : (encodeLen len).length = 1 + len / 255 := by
  induction len using Nat.strongRecOn with
  | ind len ih =>
    rw [encodeLen]
    split
    · rw [List.length_cons, ih (len - 255) (by omega)]
      omega
    · rw [List.length_singleton]
      omega

/-- The control byte gives the length, or that there are bytes behind it. -/
theorem readLength_control {len low : Nat} (small : len ≤ 7) (isLow : low < 32) (input : List UInt8) :
    readLength (byte (len * 2 ^ 5 + low)) input = if len = 7 then readLen 7 input
      else some (UInt32.ofNat len, input) := by
  have shifted : (byte (len * 2 ^ 5 + low) >>> 5).toUInt32 = UInt32.ofNat len := by
    apply UInt32.toNat_inj.mp
    rw [UInt8.toNat_toUInt32, UInt8.toNat_shiftRight, toNat_byte (by omega), UInt32.toNat_ofNat',
      show (5 : UInt8).toNat % 8 = 5 from rfl, Nat.shiftRight_eq_div_pow]
    omega
  unfold readLength
  dsimp only
  rw [shifted]
  by_cases seven : len = 7
  · rw [if_pos seven, if_pos (by rw [seven]; rfl)]
    rw [seven]
    rfl
  · have other : UInt32.ofNat len ≠ 7 := fun same => seven (by
      have value := congrArg UInt32.toNat same
      rw [UInt32.toNat_ofNat', Nat.mod_eq_of_lt (by omega)] at value
      exact value)
    rw [if_neg seven, if_neg other]

/-! ## The place -/

/-- The distance comes back. -/
theorem readDist_toLittleEndian (count : Nat) : forall (shift dist value : Nat)
    (rest : List UInt8), value < 256 ^ count ->
    readDist count shift dist (toLittleEndian count value ++ rest) = some (dist + value * 2 ^ shift, rest) := by
  induction count with
  | zero =>
      intro shift dist value rest small
      rw [Nat.pow_zero, Nat.lt_one_iff] at small
      rw [small, Nat.zero_mul, Nat.add_zero]
      rfl
  | succ count ih =>
      intro shift dist value rest small
      rw [Nat.pow_succ] at small
      rw [toLittleEndian, List.cons_append, readDist, ih _ _ _ _ (by omega), UInt8.toNat_ofNat', Nat.pow_add,
        Nat.add_assoc]
      have whole := Nat.mod_add_div value 256
      congr 3
      calc value % 256 * 2 ^ shift + value / 256 * (2 ^ shift * 256)
          = (value % 256 + 256 * (value / 256)) * 2 ^ shift := by ring
        _ = value * 2 ^ shift := by rw [whole]

theorem byte_mod (value : Nat) : byte (value % 256) = byte value := UInt8.toNat_inj.mp (by
  rw [byte, byte, UInt8.toNat_ofNat', UInt8.toNat_ofNat', Nat.mod_mod])

variable {imageDist pixDist : Nat}

/-- A short pixel distance: six bits of the image distance, and as many bytes as the flag says. -/
theorem encodePlace_short (far : imageDist < 2 ^ 24) (short : pixDist < maxPixelShortDistance) :
    Exists fun flag => flag < 4 ∧ imageDist / 64 < 256 ^ flag ∧ getEncodeRefSize imageDist pixDist = 3 + flag ∧
      encodePlace imageDist pixDist = byte (flag * 64 + imageDist % 64) :: toLittleEndian flag (imageDist / 64) := by
  unfold getEncodeRefSize encodePlace
  rw [if_pos short, if_pos short]
  by_cases first : imageDist < 64
  · refine ⟨0, by decide, by omega, if_pos first, ?_⟩
    rw [if_pos first, Nat.zero_mul, Nat.zero_add, toLittleEndian]
  rw [if_neg first, if_neg first]
  by_cases second : imageDist < 16384
  · refine ⟨1, by decide, by omega, if_pos second, ?_⟩
    rw [if_pos second, byte_mod]
    rfl
  rw [if_neg second, if_neg second]
  by_cases third : imageDist < 4194304
  · refine ⟨2, by decide, by omega, if_pos third, ?_⟩
    rw [if_pos third, byte_mod, byte_mod, toLittleEndian, toLittleEndian, toLittleEndian, Nat.div_div_eq_div_mul]
    rfl
  · refine ⟨3, by decide, by omega, if_neg third, ?_⟩
    rw [if_neg third, byte_mod, byte_mod, byte_mod, toLittleEndian, toLittleEndian, toLittleEndian, toLittleEndian,
      Nat.div_div_eq_div_mul, Nat.div_div_eq_div_mul]
    rfl

/-- A long pixel distance: the whole image distance in as many bytes as the flag says. -/
theorem encodePlace_far (far : imageDist < 2 ^ 24) (long : ¬ pixDist < maxPixelShortDistance) :
    Exists fun flag => flag < 4 ∧ imageDist < 256 ^ flag ∧
      getEncodeRefSize imageDist pixDist = 3 + flag + (if pixDist < maxPixelMediumDistance then 0 else 1) ∧
      encodePlace imageDist pixDist =
        byte (flag * 64 + ((if pixDist < maxPixelMediumDistance then 0 else 32) + pixDist / 2 ^ 12 % 32)) ::
          (toLittleEndian flag imageDist ++ if pixDist < maxPixelMediumDistance then []
            else [byte (pixDist / 2 ^ 17)]) := by
  have last : (if (if pixDist < maxPixelMediumDistance then 0 else 32) ≠ 0 then [byte (pixDist / 2 ^ 17 % 256)]
      else []) =
      if pixDist < maxPixelMediumDistance then [] else [byte (pixDist / 2 ^ 17)] := by
    rw [byte_mod]
    split <;> rfl
  unfold getEncodeRefSize encodePlace
  dsimp only
  rw [if_neg long, if_neg long, last]
  generalize (if pixDist < maxPixelMediumDistance then 0 else 32) = control
  by_cases zero : imageDist = 0
  · refine ⟨0, by decide, by omega, by rw [if_pos zero], ?_⟩
    rw [if_pos zero, Nat.zero_mul, Nat.zero_add, toLittleEndian, List.cons_append]
  rw [if_neg zero, if_neg zero]
  by_cases first : imageDist < 256
  · refine ⟨1, by decide, by omega, by rw [if_pos first], ?_⟩
    rw [if_pos first, byte_mod, toLittleEndian, toLittleEndian, Nat.add_comm control, Nat.add_assoc]
    rfl
  rw [if_neg first, if_neg first]
  by_cases second : imageDist < 65536
  · refine ⟨2, by decide, by omega, by rw [if_pos second], ?_⟩
    rw [if_pos second, byte_mod, byte_mod, toLittleEndian, toLittleEndian, toLittleEndian, Nat.add_comm control,
      Nat.add_assoc]
    rfl
  · refine ⟨3, by decide, by omega, by rw [if_neg second], ?_⟩
    rw [if_neg second, byte_mod, byte_mod, byte_mod, toLittleEndian, toLittleEndian, toLittleEndian, toLittleEndian,
      Nat.add_assoc control, Nat.add_comm control, Nat.add_assoc, Nat.div_div_eq_div_mul]
    rfl

theorem readPlace_short {code : UInt8} {pixelOfs : Nat} (rest : List UInt8) : readPlace false pixelOfs (code :: rest) =
    (readDist (code.toNat / 64) 6 (code.toNat % 64) rest).map (fun (dist, rest) => (pixelOfs, dist, rest)) := rfl

/-- What the decoder reads behind the low bits of the pixel distance. -/
theorem readPlace_encodePlace (far : imageDist < 2 ^ 24) (long : pixDist < maxPixelLongDistance)
    (rest : List UInt8) :
    readPlace (decide ¬ pixDist < maxPixelShortDistance) (pixDist % 4096) (encodePlace imageDist pixDist ++ rest) =
      some (pixDist, imageDist, rest) := by
  by_cases short : pixDist < maxPixelShortDistance
  · rcases encodePlace_short far short with ⟨flag, four, fits, -, places⟩
    have code := toNat_byte (show flag * 64 + imageDist % 64 < 256 by omega)
    have isFlag : (flag * 64 + imageDist % 64) / 64 = flag := by omega
    have isLow : (flag * 64 + imageDist % 64) % 64 = imageDist % 64 := by omega
    have whole : imageDist % 64 + imageDist / 64 * 2 ^ 6 = imageDist := by omega
    have pixels : pixDist % 4096 = pixDist := Nat.mod_eq_of_lt short
    rw [decide_eq_false (not_not_intro short), places, List.cons_append, readPlace_short, code, isFlag, isLow,
      readDist_toLittleEndian _ _ _ _ _ fits, Option.map_some, whole, pixels]
  · rcases encodePlace_far far short with ⟨flag, four, fits, -, places⟩
    unfold maxPixelLongDistance at long
    rw [decide_eq_true short, places, List.cons_append, List.append_assoc, readPlace]
    dsimp only
    rw [if_pos rfl]
    by_cases medium : pixDist < maxPixelMediumDistance
    · have code := toNat_byte (show flag * 64 + (0 + pixDist / 2 ^ 12 % 32) < 256 by omega)
      have isFlag : (flag * 64 + (0 + pixDist / 2 ^ 12 % 32)) / 64 = flag := by omega
      have pixels : pixDist % 4096 + (flag * 64 + (0 + pixDist / 2 ^ 12 % 32)) % 32 * 2 ^ 12 = pixDist := by
        unfold maxPixelMediumDistance at medium
        omega
      rw [if_pos medium, if_pos medium, code, isFlag, readDist_toLittleEndian _ _ _ _ _ fits, Option.bind_some]
      dsimp only
      rw [if_neg (by omega), pixels, Nat.zero_add, Nat.pow_zero, Nat.mul_one, List.nil_append]
    · have code := toNat_byte (show flag * 64 + (32 + pixDist / 2 ^ 12 % 32) < 256 by omega)
      have isFlag : (flag * 64 + (32 + pixDist / 2 ^ 12 % 32)) / 64 = flag := by omega
      have pixels : pixDist % 4096 + (flag * 64 + (32 + pixDist / 2 ^ 12 % 32)) % 32 * 2 ^ 12 +
          pixDist / 2 ^ 17 * 2 ^ 17 = pixDist := by omega
      rw [if_neg medium, if_neg medium, code, isFlag, readDist_toLittleEndian _ _ _ _ _ fits, Option.bind_some]
      dsimp only
      rw [if_pos (by omega), List.cons_append]
      dsimp only
      rw [toNat_byte (by omega), pixels, Nat.zero_add, Nat.pow_zero, Nat.mul_one, List.nil_append]

/-! ## The token -/

/-- The control byte, the bytes of the length and the low bits of the pixel distance. -/
theorem encodeMatch_cons (imageDist pixDist len : Nat) :
    Exists fun low => low < 32 ∧ low / 16 % 2 = (if pixDist < maxPixelShortDistance then 0 else 1) ∧
      low % 16 = pixDist % 16 ∧
      encodeMatch imageDist pixDist len = byte (min len 7 * 2 ^ 5 + low) ::
        ((if len < 7 then [] else encodeLen (len - 7)) ++ byte (pixDist / 2 ^ 4) :: encodePlace imageDist pixDist) := by
  refine ⟨(if pixDist < maxPixelShortDistance then 0 else 16) + pixDist % 16, ?_, ?_, ?_, ?_⟩
  · split <;> omega
  · split <;> omega
  · split <;> omega
  · unfold encodeMatch
    rw [byte_mod]
    have control : forall count, (if pixDist < maxPixelShortDistance then byte (count * 2 ^ 5 + pixDist % 16)
        else byte (count * 2 ^ 5 + 16 + pixDist % 16)) =
        byte (count * 2 ^ 5 + ((if pixDist < maxPixelShortDistance then 0 else 16) + pixDist % 16)) := by
      intro count
      by_cases short : pixDist < maxPixelShortDistance
      · rw [if_pos short, if_pos short, Nat.zero_add]
      · rw [if_neg short, if_neg short, Nat.add_assoc]
    by_cases small : len < 7
    · rw [if_pos small, if_pos small, control, Nat.min_eq_left (Nat.le_of_lt small)]
      rfl
    · rw [if_neg small, if_neg small, control, Nat.min_eq_right (Nat.le_of_not_lt small), List.cons_append,
        List.append_assoc]
      rfl

theorem length_encodePlace (far : imageDist < 2 ^ 24) :
    (encodePlace imageDist pixDist).length + 2 = getEncodeRefSize imageDist pixDist := by
  by_cases short : pixDist < maxPixelShortDistance
  · rcases encodePlace_short far short with ⟨flag, -, -, size, places⟩
    rw [places, size, List.length_cons, length_toLittleEndian]
    omega
  · rcases encodePlace_far far short with ⟨flag, -, -, size, places⟩
    rw [places, size, List.length_cons, List.length_append, length_toLittleEndian]
    split
    · rw [List.length_nil]
      omega
    · rw [List.length_singleton]
      omega

theorem length_encodeMatch (far : imageDist < 2 ^ 24) (len : Nat) :
    (encodeMatch imageDist pixDist len).length = getEncodeRefSize imageDist pixDist + lenBytes len := by
  rcases encodeMatch_cons imageDist pixDist len with ⟨low, -, -, -, token⟩
  rw [token, ← length_encodePlace far, List.length_cons, List.length_append, List.length_cons, lenBytes]
  split
  · rw [List.length_nil]
    omega
  · rw [length_encodeLen]
    omega

/-- The parser gives back what the writer was given, and consumes just its bytes. -/
theorem readReference_encodeMatch {imageDist pixDist len : Nat} (far : imageDist < 2 ^ 24)
    (long : pixDist < maxPixelLongDistance)
    (some_ : 1 ≤ len) : Exists fun ctrl => Exists fun tail => encodeMatch imageDist pixDist len = ctrl :: tail ∧
      32 ≤ ctrl.toNat ∧
      forall (variant : Variant) (rest : List UInt8),
        readReference variant ctrl (tail ++ rest) =
          some (fixReference variant (UInt32.ofNat len) pixDist imageDist, rest) := by
  rcases encodeMatch_cons imageDist pixDist len with ⟨low, small, flag, bits, token⟩
  have control := toNat_byte (show min len 7 * 2 ^ 5 + low < 256 by omega)
  refine ⟨_, _, token, by rw [control]; omega, fun variant rest => ?_⟩
  have length : readLength (byte (min len 7 * 2 ^ 5 + low)) ((if len < 7 then [] else encodeLen (len - 7)) ++
      (byte (pixDist / 2 ^ 4) :: (encodePlace imageDist pixDist ++ rest))) =
      some (UInt32.ofNat len, byte (pixDist / 2 ^ 4) :: (encodePlace imageDist pixDist ++ rest)) := by
    rw [readLength_control (Nat.min_le_right _ _) small]
    by_cases short : len < 7
    · rw [if_pos short, if_neg (by omega), Nat.min_eq_left (by omega)]
      rfl
    · rw [if_neg short, if_pos (by omega), readLen_encodeLen, show
        (7 : UInt32) = UInt32.ofNat 7 from rfl, ← UInt32.ofNat_add,
        Nat.add_sub_cancel' (Nat.le_of_not_lt short)]
  have isLong : decide ((byte (min len 7 * 2 ^ 5 + low)).toNat / 16 % 2 = 1) = decide ¬ pixDist <
      maxPixelShortDistance := by
    rw [control, show (min len 7 * 2 ^ 5 + low) / 16 % 2 = low / 16 % 2 by omega, flag]
    split <;> simp_all
  have pixels : (byte (min len 7 * 2 ^ 5 + low)).toNat % 16 + (byte (pixDist / 2 ^ 4)).toNat * 16 = pixDist % 4096 := by
    rw [control, byte, UInt8.toNat_ofNat']
    omega
  rw [List.append_assoc, List.cons_append, readReference, length, Option.bind_some]
  dsimp only
  rw [isLong, pixels, readPlace_encodePlace far long, Option.map_some]

/-- A match is taken exactly when its token is shorter than the pixels that it stands for. -/
theorem paysOff_iff (template : Template) {imageDist pixDist len : Nat} (far : imageDist < 2 ^ 24)
    (long : template.lenBias < len)
    (pixel : Memory) : PaysOff template imageDist pixDist len <->
      (encodeMatch imageDist pixDist (len - template.lenBias)).length < len * (template.encodePixel pixel).length := by
  have size : 3 ≤ getEncodeRefSize imageDist pixDist ∧ getEncodeRefSize imageDist pixDist ≤ 7 := by
    unfold getEncodeRefSize
    repeat' split
    all_goals decide
  rw [length_encodeMatch far, PaysOff, lenBytes]
  generalize getEncodeRefSize imageDist pixDist = size at *
  by_cases short : len - template.lenBias < 7
  · rw [if_pos short]
    cases template
      <;> simp only [Template.maxRefEncodeSize, Template.encodeUnits, Template.encodePixel, Template.lenBias,
      List.length_cons, List.length_nil] at long short ⊢ <;> omega
  · rw [if_neg short]
    cases template
      <;> simp only [Template.maxRefEncodeSize, Template.encodeUnits, Template.encodePixel, Template.lenBias,
      List.length_cons, List.length_nil] at long short ⊢ <;> omega

/-- The bias of the distance changes the estimate at the first long distance only. -/
theorem getEncodeRefSize_biased {imageDist pixDist : Nat}
    (differs : imageDist = 0 -> pixDist ≠ maxPixelMediumDistance) :
    getEncodeRefSize imageDist (biasedPixDist imageDist pixDist) = getEncodeRefSize imageDist pixDist := by
  unfold biasedPixDist
  split
  · rename_i same
    have other := differs same
    unfold getEncodeRefSize maxPixelShortDistance
    unfold maxPixelMediumDistance at other ⊢
    subst same
    simp only [if_true, Nat.zero_lt_succ]
    split_ifs <;> omega
  · rfl

/-- The test of `do_match` finds the matches whose tokens are shorter than their pixels. -/
theorem paysOff_biased_iff (template : Template) {imageDist pixDist len : Nat} (far : imageDist < 2 ^ 24)
    (long : template.lenBias < len) (differs : imageDist = 0 -> pixDist ≠ maxPixelMediumDistance) (pixel : Memory) :
    PaysOff template imageDist pixDist len <->
      (encodeMatch imageDist (biasedPixDist imageDist pixDist) (len - template.lenBias)).length <
        len * (template.encodePixel pixel).length := by
  rw [<- paysOff_iff template far long pixel, PaysOff, PaysOff, getEncodeRefSize_biased differs]

/-- The estimate leaves out the byte of a length.  Within an image it does not see that the distance is written one
less: four bytes at the first long distance are not taken, although their token has three. -/
theorem getEncodeRefSize_short :
    (¬ forall (imageDist pixDist len : Nat), imageDist < 2 ^ 24 -> pixDist < maxPixelLongDistance ->
      1 ≤ len -> getEncodeRefSize imageDist pixDist = (encodeMatch imageDist pixDist len).length) ∧
    ¬ PaysOff .plt 0 maxPixelMediumDistance 4 ∧
      (encodeMatch 0 (biasedPixDist 0 maxPixelMediumDistance) (4 - Template.plt.lenBias)).length = 3 := by
  refine ⟨fun same => ?_, by unfold PaysOff; decide, ?_⟩
  · have sizes := same 0 0 7 (by decide) (by decide) (by decide)
    rw [length_encodeMatch (by decide)] at sizes
    exact absurd sizes (by decide)
  · rw [length_encodeMatch (by decide)]
    decide

/-- A token is parsed to what it was written from, the estimate is its size but for the bytes of its length, and the
comparison with the estimate finds the matches that are shorter than their pixels, except within an image at the first
long distance. -/
theorem match_tokens (imageDist pixDist len : Nat) (far : imageDist < 2 ^ 24) (long : pixDist < maxPixelLongDistance)
    (some_ : 1 ≤ len) :
    (Exists fun ctrl => Exists fun tail => encodeMatch imageDist pixDist len = ctrl :: tail ∧ 32 ≤ ctrl.toNat ∧
      forall (variant : Variant) (rest : List UInt8), readReference variant ctrl (tail ++ rest) =
        some (fixReference variant (UInt32.ofNat len) pixDist imageDist, rest)) ∧
      (encodeMatch imageDist pixDist len).length = getEncodeRefSize imageDist pixDist + lenBytes len ∧
      ((imageDist = 0 -> pixDist ≠ maxPixelMediumDistance) -> forall (template : Template) (pixel : Memory),
        PaysOff template imageDist pixDist (len + template.lenBias) <->
          (encodeMatch imageDist (biasedPixDist imageDist pixDist) len).length <
            (len + template.lenBias) * (template.encodePixel pixel).length) := by
  refine ⟨readReference_encodeMatch far long some_, length_encodeMatch far len, fun differs template pixel => ?_⟩
  have pays := paysOff_biased_iff template far (Nat.lt_add_of_pos_left some_) differs pixel
  rwa [Nat.add_sub_cancel] at pays

theorem match_tokens_far : (Exists fun ctrl => Exists fun tail => encodeMatch 300 200000 9 = ctrl :: tail ∧
    32 ≤ ctrl.toNat ∧
      forall (variant : Variant) (rest : List UInt8), readReference variant ctrl (tail ++ rest) =
        some (fixReference variant (UInt32.ofNat 9) 200000 300, rest)) ∧
          (encodeMatch 300 200000 9).length = 6 + lenBytes 9 ∧
      ((300 = 0 -> 200000 ≠ maxPixelMediumDistance) -> forall (template : Template) (pixel : Memory),
        PaysOff template 300 200000 (9 + template.lenBias) <->
          (encodeMatch 300 (biasedPixDist 300 200000) 9).length <
            (9 + template.lenBias) * (template.encodePixel pixel).length) :=
  match_tokens 300 200000 9 (by decide) (by decide) (by decide)

end MatchTokens
end Glz
end Spice
