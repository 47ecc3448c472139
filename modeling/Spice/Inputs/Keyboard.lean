import Mathlib.Data.List.FinRange
import Mathlib.Logic.Function.Basic
import Spice.Lib.Run

namespace Spice
namespace Inputs

open Lib

/-!
# The keys that the inputs channel releases

The channel passes the scan codes of the client on to the keyboard, and tracks which
keys they leave pressed, so that it can release them when the client goes away.  The
tracker keeps the keys with the prefix 0xe0 in `key` and the others in `key_ext`, but
`inputs_release_keys` takes them the other way round.
-/

/-! ## XT scan codes -/

/-- The key of a scan code, without the bit for a release. -/
def keyIndex (scan : UInt8) : Nat := (scan &&& 0x7f).toNat

/-- Whether a scan code presses its key. -/
def isMake (scan : UInt8) : Bool := scan &&& 0x80 == 0

/-- A keyboard that decodes scan codes of set 1, with and without the prefix. -/
structure XtKeyboard where
  ext : Bool
  pressed : Bool -> Nat -> Bool

namespace XtKeyboard

/-- No key is pressed, and no prefix was read. -/
def idle : XtKeyboard := { ext := false, pressed := fun _ _ => false }

def scan (kbd : XtKeyboard) (scan : UInt8) : XtKeyboard :=
  if scan = 0xe0 then { kbd with ext := true }
  else
    { ext := false
      pressed := Function.update kbd.pressed kbd.ext
        (Function.update (kbd.pressed kbd.ext) (keyIndex scan) (isMake scan)) }

def read (kbd : XtKeyboard) (scans : List UInt8) : XtKeyboard := scans.foldl scan kbd

/-- Every release is one of a key that is pressed. -/
def OnlyHeld : XtKeyboard -> List UInt8 -> Prop
  | _, [] => True
  | kbd, scan :: rest =>
      (scan ≠ 0xe0 -> isMake scan = false -> kbd.pressed kbd.ext (keyIndex scan) = true) ∧ OnlyHeld (kbd.scan scan) rest

end XtKeyboard

/-! ## The channel -/

structure SpiceKbdState where
  pushExt : Bool
  key : Fin 0x7f -> Bool
  keyExt : Fin 0x7f -> Bool

/-- The keyboard of the channel, with the scan codes that it was given. -/
structure SpiceKbdInstance where
  st : SpiceKbdState
  scans : List UInt8

def inputsSetKeyboard : SpiceKbdInstance where
  st := { pushExt := false, key := fun _ => false, keyExt := fun _ => false }
  scans := []

namespace SpiceKbdInstance

variable (sin : SpiceKbdInstance)

/-- The tracking of `kbd_push_scan`; `none` is an access behind a table. -/
def track (scan : UInt8) : Option SpiceKbdState :=
  if scan = 0xe0 then some { sin.st with pushExt := true }
  else if inside : keyIndex scan < 0x7f then
    if sin.st.pushExt then
      some { sin.st with pushExt := false, key := Function.update sin.st.key ⟨keyIndex scan, inside⟩ (isMake scan) }
    else
      some { sin.st with
        pushExt := false
        keyExt := Function.update sin.st.keyExt ⟨keyIndex scan, inside⟩ (isMake scan) }
  else none

def kbdPushScan (scan : UInt8) : Option SpiceKbdInstance :=
  (sin.track scan).map (fun st => { st := st, scans := sin.scans ++ [scan] })

/-- The body of the loop over `key`. -/
def releaseKey (i : Fin 0x7f) : Option SpiceKbdInstance :=
  if sin.st.key i then
    { sin with st := { sin.st with key := Function.update sin.st.key i false } }.kbdPushScan (UInt8.ofNat i ||| 0x80)
  else some sin

/-- The body of the loop over `key_ext`. -/
def releaseKeyExt (i : Fin 0x7f) : Option SpiceKbdInstance :=
  if sin.st.keyExt i then
    ({ sin with st := { sin.st with keyExt := Function.update sin.st.keyExt i false } }.kbdPushScan 0xe0).bind
      (fun sin => sin.kbdPushScan (UInt8.ofNat i ||| 0x80))
  else some sin

def inputsReleaseKeys : Option SpiceKbdInstance :=
  (run releaseKey sin (List.finRange 0x7f)).bind (fun sin => run releaseKeyExt sin (List.finRange 0x7f))

end SpiceKbdInstance

def scrollLockScanCode : UInt8 := 0x46
def numLockScanCode : UInt8 := 0x45
def capsLockScanCode : UInt8 := 0x3a

/-- The messages about keys; `leds` is what the keyboard answers when the message is handled. -/
inductive Message
  | keyDown (code : UInt32)
  | keyUp (code : UInt32)
  | keyScancode (code : List UInt8)
  | keyModifiers (modifiers : UInt16) (leds : UInt8)

def codeBytes (code : UInt32) : List UInt8 :=
  ([0, 1, 2, 3].map (fun i : UInt32 => ((code >>> (i * 8)) &&& 0xff).toUInt8)).takeWhile (fun byte => byte != 0)

/-- The codes for a lock key whose light is not as the client has it. -/
def lockScans (modifiers : UInt16) (leds : UInt8) (flag : UInt16) (scan : UInt8) : List UInt8 :=
  if modifiers &&& flag ≠ leds.toUInt16 &&& flag then [scan, scan ||| 0x80] else []

/-- The scan codes that `inputs_channel_handle_parsed` pushes for a message. -/
def Message.scans : Message -> List UInt8
  | .keyDown code => codeBytes code
  | .keyUp code => codeBytes code
  | .keyScancode code => code
  | .keyModifiers modifiers leds =>
      lockScans modifiers leds 1 scrollLockScanCode ++ lockScans modifiers leds 2 numLockScanCode ++
        lockScans modifiers leds 4 capsLockScanCode

def handleParsed (sin : SpiceKbdInstance) (message : Message) : Option SpiceKbdInstance :=
  run SpiceKbdInstance.kbdPushScan sin message.scans

/-! ## What is asked for -/

/-- The messages are handled without an access behind a table; then the keys are released,
each one because it is pressed, and none stays pressed. -/
def ReleasesKeys (messages : List Message) : Prop :=
  Exists fun sin => Exists fun final => Exists fun released =>
    run handleParsed inputsSetKeyboard messages = some sin ∧ sin.inputsReleaseKeys = some final ∧
      final.scans = sin.scans ++ released ∧ (XtKeyboard.idle.read sin.scans).OnlyHeld released ∧
      forall ext code, (XtKeyboard.idle.read final.scans).pressed ext code = false

/-! ## Tracking -/

namespace SpiceKbdState

/-- The keyboard that a state of the tracker stands for: `key` has the keys with the prefix. -/
def view (st : SpiceKbdState) : XtKeyboard where
  ext := st.pushExt
  pressed ext code :=
    if inside : code < 0x7f then (if ext then st.key ⟨code, inside⟩ else st.keyExt ⟨code, inside⟩) else false

theorem view_key (st : SpiceKbdState) (i : Fin 0x7f) : st.view.pressed true i = st.key i := by
  unfold view
  exact dif_pos i.isLt

theorem view_keyExt (st : SpiceKbdState) (i : Fin 0x7f) : st.view.pressed false i = st.keyExt i := by
  unfold view
  exact dif_pos i.isLt

theorem view_outside (st : SpiceKbdState) (ext : Bool) {code : Nat} (outside : ¬ code < 0x7f) :
    st.view.pressed ext code = false := by
  unfold view
  exact dif_neg outside

end SpiceKbdState

theorem keyIndex_le (scan : UInt8) : keyIndex scan ≤ 0x7f := by
  unfold keyIndex
  rw [UInt8.toNat_and]
  exact Nat.and_le_right

namespace SpiceKbdInstance

variable {sin next : SpiceKbdInstance}

/-- What the keyboard makes of the scan codes it was given. -/
def heard (sin : SpiceKbdInstance) : XtKeyboard := XtKeyboard.idle.read sin.scans

theorem heard_kbdPushScan {scan : UInt8} (pushed : sin.kbdPushScan scan = some next) :
    next.heard = sin.heard.scan scan := by
  unfold kbdPushScan at pushed
  rcases Option.map_eq_some_iff.mp pushed with ⟨st, _, rfl⟩
  unfold heard XtKeyboard.read
  rw [List.foldl_append]
  rfl

/-- What the tracker remembers of a scan code. -/
theorem track_view (sin : SpiceKbdInstance) (scan : UInt8) : (sin.track scan).map SpiceKbdState.view =
      if keyIndex scan = 0x7f then none else some (sin.st.view.scan scan) := by
  unfold track XtKeyboard.scan
  by_cases isPrefix : scan = 0xe0
  · subst isPrefix
    rfl
  · rw [if_neg isPrefix, if_neg isPrefix]
    by_cases inside : keyIndex scan < 0x7f
    · rw [dif_pos inside, if_neg (Nat.ne_of_lt inside)]
      cases extended : sin.st.pushExt
      all_goals
        refine congrArg some ?_
        unfold SpiceKbdState.view
        rw [extended]
        refine congrArg (XtKeyboard.mk false) ?_
        funext ext code
        by_cases same : code = keyIndex scan
        · subst same
          cases ext <;> simp [Function.update, inside]
        · cases ext <;> simp [Function.update, same, Fin.ext_iff]
    · rw [dif_neg inside, if_pos (Nat.le_antisymm (keyIndex_le scan) (Nat.le_of_not_lt inside))]
      rfl

/-- What the guest hears is what the tracker has seen. -/
theorem run_kbdPushScan (scans : List UInt8) (same : sin.heard = sin.st.view) :
    (forall scan, scan ∈ scans -> keyIndex scan ≠ 0x7f) ∧
        (Exists fun next => run kbdPushScan sin scans = some next ∧ next.heard = next.st.view ∧
          next.heard = sin.heard.read scans ∧ next.scans = sin.scans ++ scans) ∨
      (Exists fun scan => scan ∈ scans ∧ keyIndex scan = 0x7f) ∧ run kbdPushScan sin scans = none := by
  induction scans generalizing sin with
  | nil => exact Or.inl ⟨fun _ none => absurd none List.not_mem_nil, sin, rfl, same, rfl, (List.append_nil _).symm⟩
  | cons scan rest later =>
      have tracked := track_view sin scan
      by_cases behind : keyIndex scan = 0x7f
      · rw [if_pos behind, Option.map_eq_none_iff] at tracked
        refine Or.inr ⟨⟨scan, List.mem_cons_self, behind⟩, ?_⟩
        rw [run, kbdPushScan, tracked]
        rfl
      · rw [if_neg behind] at tracked
        rcases Option.map_eq_some_iff.mp tracked with ⟨st, isTracked, view⟩
        have pushed : sin.kbdPushScan scan = some { st := st, scans := sin.scans ++ [scan] } := by
          rw [kbdPushScan, isTracked]
          rfl
        have heard := heard_kbdPushScan pushed
        rw [same, <- view] at heard
        rw [run_cons_of_some kbdPushScan rest pushed]
        rcases later heard with ⟨inside, final, ran, follows, all, scans⟩ | ⟨⟨other, member, index⟩, stopped⟩
        · refine Or.inl ⟨?_, final, ran, follows, ?_, ?_⟩
          · intro other member
            rcases List.mem_cons.mp member with rfl | member
            · exact behind
            · exact inside other member
          · rw [all, heard, view, <- same]
            rfl
          · rw [scans, List.append_assoc]
            rfl
        · exact Or.inr ⟨⟨other, List.mem_cons_of_mem _ member, index⟩, stopped⟩

end SpiceKbdInstance

theorem run_handleParsed (sin : SpiceKbdInstance) (messages : List Message) :
    run handleParsed sin messages = run SpiceKbdInstance.kbdPushScan sin (messages.flatMap Message.scans) := by
  induction messages generalizing sin with
  | nil => rfl
  | cons message rest later =>
      rw [run, List.flatMap_cons, run_append, handleParsed]
      cases run SpiceKbdInstance.kbdPushScan sin message.scans with
      | none => rfl
      | some next => exact later next

/-! ## Releasing -/

theorem release_code : forall i : Fin 0x7f, keyIndex (UInt8.ofNat i ||| 0x80) = i ∧
    isMake (UInt8.ofNat i ||| 0x80) = false ∧ (UInt8.ofNat i ||| 0x80 = 0xe0 <-> i = 0x60) := by
  decide +kernel

namespace SpiceKbdInstance

variable {sin next : SpiceKbdInstance}

/-- The scan code of a release. -/
theorem kbdPushScan_release (sin : SpiceKbdInstance) (i : Fin 0x7f) :
    sin.kbdPushScan (UInt8.ofNat i ||| 0x80) = some
      { st :=
          if i = 0x60 then { sin.st with pushExt := true }
          else if sin.st.pushExt then { sin.st with pushExt := false, key := Function.update sin.st.key i false }
          else { sin.st with pushExt := false, keyExt := Function.update sin.st.keyExt i false }
        scans := sin.scans ++ [UInt8.ofNat i ||| 0x80] } := by
  rcases release_code i with ⟨index, release, isPrefix⟩
  have inside : keyIndex (UInt8.ofNat i ||| 0x80) < 0x7f := by
    rw [index]
    exact i.isLt
  unfold kbdPushScan track
  by_cases special : i = 0x60
  · rw [if_pos (isPrefix.mpr special), if_pos special]
    rfl
  · rw [if_neg (fun equal => special (isPrefix.mp equal)), if_neg special, dif_pos inside, release]
    have same : (⟨keyIndex (UInt8.ofNat i ||| 0x80), inside⟩ : Fin 0x7f) = i := Fin.ext index
    rw [same]
    split <;> rfl

theorem scan_release (kbd : XtKeyboard) (i : Fin 0x7f) :
    kbd.scan (UInt8.ofNat i ||| 0x80) =
      if i = 0x60 then { kbd with ext := true }
      else { ext := false
             pressed := Function.update kbd.pressed kbd.ext (Function.update (kbd.pressed kbd.ext) i false) } := by
  rcases release_code i with ⟨index, release, isPrefix⟩
  unfold XtKeyboard.scan
  by_cases special : i = 0x60
  · rw [if_pos (isPrefix.mpr special), if_pos special]
  · rw [if_neg (fun equal => special (isPrefix.mp equal)), if_neg special, index, release]

theorem pressed_release (kbd : XtKeyboard) (i : Fin 0x7f) (ext : Bool) (code : Nat) :
    (kbd.scan (UInt8.ofNat i ||| 0x80)).pressed ext code =
      if i ≠ 0x60 ∧ ext = kbd.ext ∧ code = i then false else kbd.pressed ext code := by
  rw [scan_release]
  by_cases special : i = 0x60
  · rw [if_pos special, if_neg (fun all => all.1 special)]
  · rw [if_neg special]
    by_cases table : ext = kbd.ext
    · subst table
      by_cases same : code = i
      · subst same
        simp [special]
      · simp [Function.update, same]
    · simp [Function.update, table]

theorem heard_of_scans {more : List UInt8} (scans : next.scans = sin.scans ++ more) :
    next.heard = sin.heard.read more := by
  unfold heard XtKeyboard.read
  rw [scans, List.foldl_append]

variable {i : Fin 0x7f}

theorem releaseKey_held (held : sin.st.key i = true) :
    Exists fun next => sin.releaseKey i = some next ∧ next.scans = sin.scans ++ [UInt8.ofNat i ||| 0x80] ∧
      next.st.key = Function.update sin.st.key i false ∧ next.st.keyExt =
        (if i = 0x60 ∨ sin.st.pushExt then sin.st.keyExt else Function.update sin.st.keyExt i false) ∧
      next.st.pushExt = decide (i = 0x60) := by
  unfold releaseKey
  rw [if_pos held, kbdPushScan_release]
  refine ⟨_, rfl, rfl, ?_⟩
  by_cases special : i = 0x60
  · simp [special]
  · cases sin.st.pushExt <;> simp [special]

theorem releaseKeyExt_held (held : sin.st.keyExt i = true) : Exists fun next => sin.releaseKeyExt i = some next ∧
      next.scans = sin.scans ++ [0xe0, UInt8.ofNat i ||| 0x80] ∧
      next.st.key = (if i = 0x60 then sin.st.key else Function.update sin.st.key i false) ∧
      next.st.keyExt = Function.update sin.st.keyExt i false := by
  have extended :
      (kbdPushScan { sin with st := { sin.st with keyExt := Function.update sin.st.keyExt i false } } 0xe0) =
      some { st := { sin.st with keyExt := Function.update sin.st.keyExt i false, pushExt := true }
             scans := sin.scans ++ [0xe0] } := rfl
  unfold releaseKeyExt
  rw [if_pos held, extended, Option.bind_some, kbdPushScan_release]
  refine ⟨_, rfl, List.append_assoc _ _ _, ?_⟩
  by_cases special : i = 0x60
  · simp [special]
  · simp [special]

theorem releaseKey_idle (free : ¬ sin.st.key i = true) : sin.releaseKey i = some sin := by
  unfold releaseKey
  rw [if_neg free]

theorem releaseKeyExt_idle (free : ¬ sin.st.keyExt i = true) : sin.releaseKeyExt i = some sin := by
  unfold releaseKeyExt
  rw [if_neg free]

theorem pressed_releaseExt (scans : next.scans = sin.scans ++ [0xe0, UInt8.ofNat i ||| 0x80]) (ext : Bool)
    (code : Nat) :
    next.heard.pressed ext code = if i ≠ 0x60 ∧ ext = true ∧ code = i then false else sin.heard.pressed ext code := by
  rw [heard_of_scans scans]
  exact pressed_release (sin.heard.scan 0xe0) i ext code

/-- A key with the prefix that the tracker has forgotten, in both tables. -/
def Lost (sin : SpiceKbdInstance) : Prop :=
  Exists fun i : Fin 0x7f => sin.st.key i = false ∧ sin.st.keyExt i = false ∧ sin.heard.pressed true i = true

/-- A key without the prefix that the tracker has forgotten. -/
def Stuck (sin : SpiceKbdInstance) : Prop :=
  Exists fun i : Fin 0x7f => sin.st.keyExt i = false ∧ sin.heard.pressed false i = true

/-- A key that is lost stays lost. -/
theorem Lost.releaseKey (lost : sin.Lost) (done : sin.releaseKey i = some next) : next.Lost := by
  by_cases held : sin.st.key i = true
  · rcases releaseKey_held held with ⟨_, released, scans, key, keyExt, _⟩
    cases released.symm.trans done
    rcases lost with ⟨other, noKey, noKeyExt, pressed⟩
    have different : other ≠ i := fun same => by
      rw [same, held] at noKey
      cases noKey
    refine ⟨other, ?_, ?_, ?_⟩
    · rw [key, Function.update_of_ne different]
      exact noKey
    · rw [keyExt]
      split
      · exact noKeyExt
      · rw [Function.update_of_ne different]
        exact noKeyExt
    · rw [heard_of_scans scans]
      refine (pressed_release sin.heard i true other).trans ?_
      rw [if_neg (fun all => different (Fin.ext all.2.2))]
      exact pressed
  · cases (releaseKey_idle held).symm.trans done
    exact lost

/-- A key with the prefix that is lost stays lost. -/
theorem Lost.releaseKeyExt (lost : sin.Lost) (done : sin.releaseKeyExt i = some next) : next.Lost := by
  by_cases held : sin.st.keyExt i = true
  · rcases releaseKeyExt_held held with ⟨_, released, scans, key, keyExt⟩
    cases released.symm.trans done
    rcases lost with ⟨other, noKey, noKeyExt, pressed⟩
    have different : other ≠ i := fun same => by
      rw [same, held] at noKeyExt
      cases noKeyExt
    refine ⟨other, ?_, ?_, ?_⟩
    · rw [key]
      split
      · exact noKey
      · rw [Function.update_of_ne different]
        exact noKey
    · rw [keyExt, Function.update_of_ne different]
      exact noKeyExt
    · rw [pressed_releaseExt scans, if_neg (fun all => different (Fin.ext all.2.2))]
      exact pressed
  · cases (releaseKeyExt_idle held).symm.trans done
    exact lost

/-- A key that is stuck stays stuck. -/
theorem Stuck.releaseKeyExt (stuck : sin.Stuck) (done : sin.releaseKeyExt i = some next) : next.Stuck := by
  by_cases held : sin.st.keyExt i = true
  · rcases releaseKeyExt_held held with ⟨_, released, scans, _, keyExt⟩
    cases released.symm.trans done
    rcases stuck with ⟨other, noKeyExt, pressed⟩
    refine ⟨other, ?_, ?_⟩
    · rw [keyExt]
      by_cases same : other = i
      · subst same
        rw [Function.update_self]
      · rw [Function.update_of_ne same]
        exact noKeyExt
    · rw [pressed_releaseExt scans, if_neg (fun all => by cases all.2.1)]
      exact pressed
  · cases (releaseKeyExt_idle held).symm.trans done
    exact stuck

theorem run_releaseKey_idle (keys : List (Fin 0x7f)) (none : forall i, i ∈ keys -> sin.st.key i = false) :
    run SpiceKbdInstance.releaseKey sin keys = some sin := by
  induction keys with
  | nil => rfl
  | cons i rest later =>
      have same : sin.releaseKey i = some sin :=
        SpiceKbdInstance.releaseKey_idle (Bool.eq_false_iff.mp (none i List.mem_cons_self))
      rw [run_cons_of_some _ rest same]
      exact later (fun other member => none other (List.mem_cons_of_mem i member))

theorem run_releaseKeyExt_idle (keys : List (Fin 0x7f)) (none : forall i, sin.st.keyExt i = false) :
    run SpiceKbdInstance.releaseKeyExt sin keys = some sin := by
  induction keys with
  | nil => rfl
  | cons i rest later =>
      have same : sin.releaseKeyExt i = some sin :=
        SpiceKbdInstance.releaseKeyExt_idle (Bool.eq_false_iff.mp (none i))
      rw [run_cons_of_some _ rest same]
      exact later

variable {final : SpiceKbdInstance}

/-- A key with the prefix makes one of the releases miss. -/
theorem run_releaseKeyExt_stuck (keys : List (Fin 0x7f))
    (known : forall i, sin.st.keyExt i = true -> sin.heard.pressed false i = true)
    (some : Exists fun i => i ∈ keys ∧ sin.st.keyExt i = true)
    (done : run SpiceKbdInstance.releaseKeyExt sin keys = .some final) : final.Stuck := by
  induction keys with
  | nil =>
      rcases some with ⟨_, member, _⟩
      exact absurd member List.not_mem_nil
  | cons i rest later =>
      by_cases held : sin.st.keyExt i = true
      · rcases releaseKeyExt_held held with ⟨next, released, scans, _, keyExt⟩
        rw [run_cons_of_some _ rest released] at done
        have stuck : next.Stuck := by
          refine ⟨i, ?_, ?_⟩
          · rw [keyExt, Function.update_self]
          · rw [pressed_releaseExt scans, if_neg (fun all => by cases all.2.1)]
            exact known i held
        have keep : forall (past : List (Fin 0x7f)) (state : SpiceKbdInstance) (key : Fin 0x7f)
            (after : SpiceKbdInstance),
            state.Stuck -> state.releaseKeyExt key = .some after -> after.Stuck :=
          fun _ _ _ _ stuck done => stuck.releaseKeyExt done
        exact @run_invariant _ _ SpiceKbdInstance.releaseKeyExt (fun _ => Stuck) keep rest [] next final stuck done
      · rw [run_cons_of_some _ rest (SpiceKbdInstance.releaseKeyExt_idle held)] at done
        rcases some with ⟨other, member, tracked⟩
        rcases List.mem_cons.mp member with rfl | member
        · exact absurd tracked held
        · exact later ⟨other, member, tracked⟩ done

/-- What the tracker still knows while the first loop runs. -/
structure Sync (sin : SpiceKbdInstance) : Prop where
  ext : sin.st.pushExt = sin.heard.ext
  key : forall i, sin.st.key i = true -> sin.heard.pressed true i = true
  keyExt : forall i, sin.st.keyExt i = true -> sin.heard.pressed false i = true

theorem Sync.of_view (same : sin.heard = sin.st.view) : Sync sin where
  ext := by
    rw [same]
    rfl
  key i held := by rw [same, SpiceKbdState.view_key, held]
  keyExt i held := by rw [same, SpiceKbdState.view_keyExt, held]

/-- The release of a key keeps tracker and guest in step. -/
theorem Sync.releaseKey (sync : Sync sin) (done : sin.releaseKey i = some next) : Sync next := by
  by_cases held : sin.st.key i = true
  · rcases releaseKey_held held with ⟨_, released, scans, key, keyExt, ext⟩
    cases released.symm.trans done
    have heard : next.heard = sin.heard.scan (UInt8.ofNat i ||| 0x80) := heard_of_scans scans
    refine ⟨?_, fun other tracked => ?_, fun other tracked => ?_⟩
    · rw [ext, heard, scan_release]
      by_cases special : i = 0x60
      · rw [if_pos special, decide_eq_true special]
      · rw [if_neg special, decide_eq_false special]
    · rw [key] at tracked
      by_cases same : other = i
      · rw [same, Function.update_self] at tracked
        cases tracked
      · rw [Function.update_of_ne same] at tracked
        rw [heard, pressed_release, if_neg (fun all => same (Fin.ext all.2.2))]
        exact sync.key other tracked
    · rw [heard, pressed_release]
      rw [keyExt] at tracked
      split at tracked
      · next kept =>
          rw [if_neg ?_]
          · exact sync.keyExt other tracked
          · rintro ⟨ordinary, plain, _⟩
            rcases kept with special | extended
            · exact ordinary special
            · rw [sync.ext, <- plain] at extended
              cases extended
      · by_cases same : other = i
        · rw [same, Function.update_self] at tracked
          cases tracked
        · rw [Function.update_of_ne same] at tracked
          rw [if_neg (fun all => same (Fin.ext all.2.2))]
          exact sync.keyExt other tracked
  · cases (releaseKey_idle held).symm.trans done
    exact sync

/-- A state in which some key will stay pressed. -/
def Doomed (sin : SpiceKbdInstance) : Prop := sin.Lost ∨ Exists fun i => sin.st.keyExt i = true

/-- A release that goes wrong leaves a key pressed. -/
theorem Sync.doomed (sync : Sync sin) (held : sin.st.key i = true)
    (wrong : i = 0x60 ∨ sin.st.pushExt = false) (done : sin.releaseKey i = some next) : next.Doomed := by
  rcases releaseKey_held held with ⟨_, released, scans, key, keyExt, _⟩
  cases released.symm.trans done
  by_cases left : next.st.keyExt i = true
  · exact Or.inr ⟨i, left⟩
  · refine Or.inl ⟨i, ?_, Bool.eq_false_iff.mpr left, ?_⟩
    · rw [key, Function.update_self]
    · rw [heard_of_scans scans]
      refine (pressed_release sin.heard i true i).trans ?_
      rw [if_neg ?_]
      · exact sync.key i held
      · rintro ⟨ordinary, extended, _⟩
        rcases wrong with special | plain
        · exact ordinary special
        · rw [sync.ext, <- extended] at plain
          cases plain

theorem Doomed.releaseKey (doomed : sin.Doomed) (sync : Sync sin) (done : sin.releaseKey i = some next) :
    next.Doomed := by
  rcases doomed with lost | ⟨other, tracked⟩
  · exact Or.inl (lost.releaseKey done)
  · by_cases held : sin.st.key i = true
    · rcases releaseKey_held held with ⟨_, released, _, _, keyExt, _⟩
      cases released.symm.trans done
      by_cases plain : sin.st.pushExt = false
      · exact sync.doomed held (Or.inr plain) done
      · refine Or.inr ⟨other, ?_⟩
        rw [keyExt, if_pos (Or.inr (Bool.eq_true_of_not_eq_false plain))]
        exact tracked
    · cases (releaseKey_idle held).symm.trans done
      exact Or.inr ⟨other, tracked⟩

theorem Doomed.run (keys : List (Fin 0x7f)) (doomed : sin.Doomed) (sync : Sync sin)
    (done : Lib.run SpiceKbdInstance.releaseKey sin keys = some final) : final.Doomed := by
  have keep : forall (past : List (Fin 0x7f)) (state : SpiceKbdInstance) (key : Fin 0x7f) (after : SpiceKbdInstance),
      state.Doomed ∧ Sync state -> state.releaseKey key = some after -> after.Doomed ∧ Sync after :=
    fun _ _ _ _ both done => ⟨both.1.releaseKey both.2 done, both.2.releaseKey done⟩
  exact (@run_invariant _ _ SpiceKbdInstance.releaseKey (fun _ state => state.Doomed ∧
    Sync state) keep keys [] sin final
    ⟨doomed, sync⟩ done).1

theorem run_releaseKey_sync (keys : List (Fin 0x7f)) (sync : Sync sin)
    (done : run SpiceKbdInstance.releaseKey sin keys = some final) : Sync final :=
  @run_invariant _ _ SpiceKbdInstance.releaseKey (fun _ => Sync)
    (fun _ _ _ _ sync done => sync.releaseKey done) keys [] sin
    final sync done

theorem run_releaseKey_plain (keys : List (Fin 0x7f)) (sync : Sync sin)
    (plain : sin.st.pushExt = false) (member : i ∈ keys) (held : sin.st.key i = true)
    (done : run SpiceKbdInstance.releaseKey sin keys = some final) : final.Doomed := by
  induction keys with
  | nil => exact absurd member List.not_mem_nil
  | cons key rest later =>
      rcases (run_cons_eq_some _).mp done with ⟨next, stepped, ran⟩
      by_cases tracked : sin.st.key key = true
      · exact (sync.doomed tracked (Or.inr plain) stepped).run rest (sync.releaseKey stepped) ran
      · cases (SpiceKbdInstance.releaseKey_idle tracked).symm.trans stepped
        rcases List.mem_cons.mp member with rfl | member
        · exact absurd held tracked
        · exact later member ran

/-- Some release in a list goes wrong. -/
theorem run_releaseKey_one (keys : List (Fin 0x7f)) (sync : Sync sin) (member : i ∈ keys) (held : sin.st.key i = true)
    (done : run SpiceKbdInstance.releaseKey sin keys = some final) :
    final.Doomed ∨ i ≠ 0x60 ∧ sin.st.pushExt = true ∧ forall j, j ∈ keys -> j ≠ i -> sin.st.key j = false := by
  induction keys with
  | nil => exact absurd member List.not_mem_nil
  | cons key rest later =>
      rcases (run_cons_eq_some _).mp done with ⟨next, stepped, ran⟩
      by_cases tracked : sin.st.key key = true
      · by_cases wrong : key = 0x60 ∨ sin.st.pushExt = false
        · exact Or.inl ((sync.doomed tracked wrong stepped).run rest (sync.releaseKey stepped) ran)
        · rcases releaseKey_held tracked with ⟨_, released, _, updated, _, ext⟩
          cases released.symm.trans stepped
          have plain : next.st.pushExt = false := by
            rw [ext]
            exact decide_eq_false (fun special => wrong (Or.inl special))
          by_cases other : Exists fun j => j ∈ rest ∧ next.st.key j = true
          · rcases other with ⟨j, later, heldLater⟩
            exact Or.inl (run_releaseKey_plain rest (sync.releaseKey stepped) plain later heldLater ran)
          · have free : forall j, j ∈ rest -> j ≠ key -> sin.st.key j = false := by
              intro j later different
              have released := Bool.eq_false_iff.mpr (fun heldLater => other ⟨j, later, heldLater⟩)
              rw [updated, Function.update_of_ne different] at released
              exact released
            have here : i = key := by
              by_contra different
              have free := free i ((List.mem_cons.mp member).resolve_left different) different
              rw [held] at free
              cases free
            subst here
            refine Or.inr ⟨fun special => wrong (Or.inl special),
              Bool.eq_true_of_not_eq_false (fun plain => wrong (Or.inr plain)), ?_⟩
            intro j member different
            exact free j ((List.mem_cons.mp member).resolve_left different) different
      · cases (SpiceKbdInstance.releaseKey_idle tracked).symm.trans stepped
        rcases List.mem_cons.mp member with rfl | member
        · exact absurd held tracked
        · rcases later member ran with doomed | ⟨ordinary, extended, others⟩
          · exact Or.inl doomed
          · refine Or.inr ⟨ordinary, extended, ?_⟩
            intro j inside different
            rcases List.mem_cons.mp inside with rfl | inside
            · exact Bool.eq_false_iff.mpr tracked
            · exact others j inside different

theorem Doomed.leaves (keys : List (Fin 0x7f)) (all : forall i, i ∈ keys) (doomed : sin.Doomed)
    (sync : Sync sin) (done : Lib.run SpiceKbdInstance.releaseKeyExt sin keys = some final) :
    Exists fun ext => Exists fun code => final.heard.pressed ext code = true := by
  rcases doomed with lost | ⟨i, tracked⟩
  · have lostThen : final.Lost :=
      @run_invariant _ _ SpiceKbdInstance.releaseKeyExt (fun _ => Lost)
        (fun _ _ _ _ lost done => lost.releaseKeyExt done)
        keys [] sin final lost done
    rcases lostThen with ⟨i, _, _, pressed⟩
    exact ⟨true, i, pressed⟩
  · rcases run_releaseKeyExt_stuck keys sync.keyExt ⟨i, all i, tracked⟩ done with ⟨other, _, pressed⟩
    exact ⟨false, other, pressed⟩

/-- The keys that have to be pressed when the release starts: none, or one with the prefix
after a prefix. -/
def Releasable (kbd : XtKeyboard) : Prop :=
  (forall ext code, kbd.pressed ext code = false) ∨
    kbd.ext = true ∧ Exists fun only => only ≠ 0x60 ∧
      forall ext code, kbd.pressed ext code = true <-> ext = true ∧ code = only

/-- If all keys were released, the condition held. -/
theorem releasable_of_released (same : sin.heard = sin.st.view)
    (done : sin.inputsReleaseKeys = some final) (none : forall ext code, final.heard.pressed ext code = false) :
    Releasable sin.heard := by
  rcases Option.bind_eq_some_iff.mp done with ⟨middle, first, second⟩
  have sync := Sync.of_view same
  have fine : ¬ middle.Doomed := by
    intro doomed
    rcases doomed.leaves (List.finRange 0x7f) List.mem_finRange (run_releaseKey_sync _ sync first) second with
      ⟨ext, code, pressed⟩
    rw [none ext code] at pressed
    cases pressed
  have noPlain : forall i, sin.st.keyExt i = false := fun i =>
    Bool.eq_false_iff.mpr (fun tracked => fine (Doomed.run _ (Or.inr ⟨i, tracked⟩) sync first))
  by_cases some : Exists fun i => sin.st.key i = true
  · rcases some with ⟨i, held⟩
    rcases run_releaseKey_one _ sync (List.mem_finRange i) held first with doomed | ⟨ordinary, extended, others⟩
    · exact absurd doomed fine
    · refine Or.inr ⟨sync.ext.symm.trans extended, i, fun equal => ordinary (Fin.ext equal), ?_⟩
      intro ext code
      rw [same]
      constructor
      · intro pressed
        by_cases inside : code < 0x7f
        · cases ext with
          | false => exact absurd pressed (Bool.eq_false_iff.mp ((sin.st.view_keyExt ⟨code, inside⟩).trans (noPlain _)))
          | true =>
              refine ⟨rfl, ?_⟩
              by_contra different
              have free := others ⟨code, inside⟩ (List.mem_finRange _) (fun equal => different (congrArg Fin.val equal))
              exact absurd pressed (Bool.eq_false_iff.mp ((sin.st.view_key ⟨code, inside⟩).trans free))
        · rw [sin.st.view_outside ext inside] at pressed
          cases pressed
      · rintro ⟨rfl, rfl⟩
        exact (sin.st.view_key i).trans held
  · refine Or.inl (fun ext code => ?_)
    have noKey : forall i, sin.st.key i = false := fun i => Bool.eq_false_iff.mpr (fun held => some ⟨i, held⟩)
    rw [same]
    by_cases inside : code < 0x7f
    · cases ext with
      | false => exact (sin.st.view_keyExt ⟨code, inside⟩).trans (noPlain _)
      | true => exact (sin.st.view_key ⟨code, inside⟩).trans (noKey _)
    · exact sin.st.view_outside ext inside

/-- One key alone is released. -/
theorem run_releaseKey_single (keys : List (Fin 0x7f)) (member : i ∈ keys) (held : sin.st.key i = true)
    (others : forall j, j ≠ i -> sin.st.key j = false) :
    run SpiceKbdInstance.releaseKey sin keys = sin.releaseKey i := by
  rcases releaseKey_held held with ⟨next, released, _, key, _⟩
  have nothing : forall j, next.st.key j = false := by
    intro j
    rw [key]
    by_cases same : j = i
    · rw [same, Function.update_self]
    · rw [Function.update_of_ne same]
      exact others j same
  induction keys with
  | nil => exact absurd member List.not_mem_nil
  | cons j rest later =>
      by_cases same : j = i
      · subst same
        rw [run_cons_of_some _ rest released, run_releaseKey_idle rest (fun other _ => nothing other), released]
      · rw [run_cons_of_some _ rest (SpiceKbdInstance.releaseKey_idle (Bool.eq_false_iff.mp (others j same)))]
        exact later ((List.mem_cons.mp member).resolve_left (fun equal => same equal.symm))

/-- Under the condition all keys are released. -/
theorem released_of_releasable (same : sin.heard = sin.st.view) (releasable : Releasable sin.heard) :
    Exists fun final => Exists fun released => sin.inputsReleaseKeys = some final ∧
      final.scans = sin.scans ++ released ∧ sin.heard.OnlyHeld released ∧
      forall ext code, final.heard.pressed ext code = false := by
  rcases releasable with none | ⟨extended, only, ordinary, pressed⟩
  · have noKey : forall i, sin.st.key i = false := fun i => by
      rw [<- SpiceKbdState.view_key, <- same, none]
    have noKeyExt : forall i, sin.st.keyExt i = false := fun i => by
      rw [<- SpiceKbdState.view_keyExt, <- same, none]
    refine ⟨sin, [], ?_, (List.append_nil _).symm, trivial, none⟩
    rw [inputsReleaseKeys, run_releaseKey_idle _ (fun i _ => noKey i)]
    exact run_releaseKeyExt_idle _ noKeyExt
  · have here : sin.heard.pressed true only = true := (pressed true only).mpr ⟨rfl, rfl⟩
    have inside : only < 0x7f := by
      by_contra outside
      rw [same, sin.st.view_outside true outside] at here
      cases here
    have held : sin.st.key ⟨only, inside⟩ = true := by
      rw [<- SpiceKbdState.view_key, <- same]
      exact here
    have others : forall j, j ≠ ⟨only, inside⟩ -> sin.st.key j = false := fun j different => by
      rw [<- SpiceKbdState.view_key, <- same]
      exact Bool.eq_false_iff.mpr (fun both => different (Fin.ext ((pressed true j).mp both).2))
    have noKeyExt : forall i, sin.st.keyExt i = false := fun i => by
      rw [<- SpiceKbdState.view_keyExt, <- same]
      exact Bool.eq_false_iff.mpr (fun plain => by cases ((pressed false i).mp plain).1)
    have special : (⟨only, inside⟩ : Fin 0x7f) ≠ 0x60 := fun equal => ordinary (congrArg Fin.val equal)
    rcases releaseKey_held held with ⟨next, released, scans, _, keyExt, _⟩
    refine ⟨next, [UInt8.ofNat only ||| 0x80], ?_, scans, ⟨fun _ _ => ?_, trivial⟩, ?_⟩
    · rw [inputsReleaseKeys, run_releaseKey_single _ (List.mem_finRange _) held others, released]
      refine run_releaseKeyExt_idle _ (fun i => ?_)
      have prefixRead : sin.st.pushExt = true := (congrArg XtKeyboard.ext same).symm.trans extended
      rw [keyExt, if_pos (Or.inr prefixRead)]
      exact noKeyExt i
    · rw [extended, (release_code ⟨only, inside⟩).1]
      exact here
    · intro ext code
      rw [heard_of_scans scans]
      refine (pressed_release sin.heard ⟨only, inside⟩ ext code).trans ?_
      split
      · rfl
      · next other =>
          refine Bool.eq_false_iff.mpr (fun both => ?_)
          rcases (pressed ext code).mp both with ⟨isExt, rfl⟩
          exact other ⟨special, isExt.trans extended.symm, rfl⟩

end SpiceKbdInstance

/-- The keys are released exactly if no scan code has the index behind the tables, and at the
end no key is pressed, or only one with the prefix, other than 0xe0 0x60, and the last code
was a prefix. -/
theorem keys_released_iff (messages : List Message) : ReleasesKeys messages <->
      (forall scan, scan ∈ messages.flatMap Message.scans -> keyIndex scan ≠ 0x7f) ∧
        SpiceKbdInstance.Releasable (XtKeyboard.idle.read (messages.flatMap Message.scans)) := by
  have start : inputsSetKeyboard.heard = inputsSetKeyboard.st.view := by
    unfold SpiceKbdInstance.heard SpiceKbdState.view
    refine congrArg (XtKeyboard.mk false) ?_
    funext ext code
    cases ext <;> simp [inputsSetKeyboard]
  unfold ReleasesKeys
  rw [run_handleParsed]
  rcases SpiceKbdInstance.run_kbdPushScan (messages.flatMap Message.scans) start with
    ⟨inside, sin, ran, same, heard, _⟩ | ⟨⟨scan, member, behind⟩, stopped⟩
  · rw [show XtKeyboard.idle.read (messages.flatMap Message.scans) = sin.heard from heard.symm]
    constructor
    · rintro ⟨other, final, _, ranToo, done, _, _, none⟩
      cases ran.symm.trans ranToo
      exact ⟨inside, SpiceKbdInstance.releasable_of_released same done none⟩
    · rintro ⟨_, releasable⟩
      rcases SpiceKbdInstance.released_of_releasable same releasable with ⟨final, released, done⟩
      exact ⟨sin, final, released, ran, done⟩
  · constructor
    · rintro ⟨_, _, _, ran, _⟩
      rw [stopped] at ran
      cases ran
    · exact fun both => absurd behind (both.1 scan member)

/-- The key A is pressed, and the release that is pushed is 0xe0 0x9e. -/
theorem plain_key_stays_pressed : ¬ ReleasesKeys [.keyDown 0x1e] := by
  rintro ⟨sin, final, released, handled, done, _, _, none⟩
  have pushed : ((run handleParsed inputsSetKeyboard [.keyDown 0x1e]).bind SpiceKbdInstance.inputsReleaseKeys).map
      SpiceKbdInstance.scans = some [0x1e, 0xe0, 0x9e] := by decide +kernel
  rw [handled, Option.bind_some, done] at pushed
  have pressed := none false 0x1e
  rw [Option.some.inj pushed] at pressed
  exact absurd pressed (by decide +kernel)

end Inputs
end Spice
