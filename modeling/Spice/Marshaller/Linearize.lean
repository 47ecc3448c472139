import Spice.Marshaller.Coverage

namespace Spice
namespace Marshaller

open Lib

/-!
# A message in one block

`spice_marshaller_linearize` gives the bytes of the whole chain after some that are skipped.
When the root has one item, a pointer into that item is returned; otherwise a block is
allocated and all items are copied to it.  Allocations do not fail; one of no bytes is a
null pointer.
-/

/-- What a returned pointer points to. -/
inductive Block
  | null
  | inside (address : Nat)
  | allocated (bytes : List UInt8)
  deriving DecidableEq, Repr

/-- The pointer that is returned, with `len` and `free_res`. -/
structure Linearized where
  data : Block
  len : Nat
  freeRes : Bool
  deriving DecidableEq, Repr

/-- The copying loop over the items of one marshaller, with what is left to be skipped. -/
def copyItems (mem : Nat -> UInt8) : List MarshallerItem -> Nat -> List UInt8 × Nat
  | [], skip => ([], skip)
  | item :: rest, skip =>
      if item.len ≤ skip then copyItems mem rest (skip - item.len)
      else
        (blockBytes mem (item.data + skip) (item.len - skip) ++ (copyItems mem rest 0).1, (copyItems mem rest 0).2)

/-- The copying loop over the chain. -/
def copyMarshallers (mem : Nat -> UInt8) : List SpiceMarshaller -> Nat -> List UInt8
  | [], _ => []
  | m :: rest, skip => (copyItems mem m.items skip).1 ++ copyMarshallers mem rest (copyItems mem m.items skip).2

/-- `spice_marshaller_linearize` on the root.  Copying more than what was allocated is undefined. -/
def spiceMarshallerLinearize (d : SpiceMarshallerData) (skip : UInt64) : Option Linearized :=
  match d.marshallers with
  | [] => none
  | root :: _ =>
      match root.items with
      | [item] =>
          if item.len ≤ skip.toNat then some { data := .null, len := 0, freeRes := false }
          else some { data := .inside (item.data + skip.toNat), len := item.len - skip.toNat, freeRes := false }
      | _ =>
          let size := (UInt64.ofNat d.totalSize - skip).toNat
          let copied := copyMarshallers d.mem d.marshallers skip.toNat
          if copied.length ≤ size then
            some { data := if size = 0 then .null else .allocated copied, len := size, freeRes := true }
          else none

/-- The bytes that the caller finds, as far as they were written. -/
def Linearized.bytes (mem : Nat -> UInt8) (result : Linearized) : List UInt8 :=
  match result.data with
  | .null => []
  | .inside address => blockBytes mem address result.len
  | .allocated bytes => bytes

/-- The whole message after the skipped bytes is returned, which is what the iovecs list, and the flag says whether a
block was allocated. -/
structure LinearizesWhole (d : SpiceMarshallerData) (skip : UInt64) (result : Linearized) : Prop where
  bytes : result.bytes d.mem = (messageBytes d).drop skip.toNat
  len : result.len = ((messageBytes d).drop skip.toNat).length
  listed : forall nVec, (spiceMarshallerFillIovec d nVec skip.toNat).length < nVec ->
    iovecBytes d.mem (spiceMarshallerFillIovec d nVec skip.toNat) = result.bytes d.mem
  free : result.freeRes = true <-> Exists fun bytes => result.data = .allocated bytes

/-- With one item in the root, everything else in the chain is empty or skipped; otherwise not everything is skipped,
and the rest has a size that is a `size_t`. -/
def FitsShortcut (d : SpiceMarshallerData) (skip : UInt64) : Prop :=
  match d.marshallers.head?.map SpiceMarshaller.items with
  | some [item] => (messageBytes d).length ≤ max item.len skip.toNat
  | _ => skip.toNat < (messageBytes d).length ∧ (messageBytes d).length - skip.toNat < 2 ^ 64

/-- A call that takes no space back. -/
def MarshallerOp.adds : MarshallerOp -> Bool
  | .unreserveSpace _ _ => false
  | _ => true

theorem copyItems_spec (mem : Nat -> UInt8) (items : List MarshallerItem) (skip : Nat) :
    copyItems mem items skip = ((itemsBytes mem items).drop skip, skip - (itemsBytes mem items).length) := by
  induction items generalizing skip with
  | nil => simp [copyItems, itemsBytes]
  | cons item rest ih =>
      have split : itemsBytes mem (item :: rest) = blockBytes mem item.data item.len ++ itemsBytes mem rest := rfl
      rw [copyItems, split, List.drop_append, blockBytes_length, List.length_append, blockBytes_length]
      by_cases skipped : item.len ≤ skip
      · have none : (blockBytes mem item.data item.len).drop skip = [] :=
          List.drop_of_length_le (by rw [blockBytes_length]; exact skipped)
        rw [if_pos skipped, ih, none, List.nil_append, Nat.sub_add_eq]
      · have nothing : skip - item.len = 0 := by omega
        have gone : skip - (item.len + (itemsBytes mem rest).length) = 0 := by omega
        rw [if_neg skipped, ih, blockBytes_drop, nothing, gone, Nat.zero_sub]

theorem copyMarshallers_spec (mem : Nat -> UInt8) (chain : List SpiceMarshaller) (skip : Nat) :
    copyMarshallers mem chain skip = (chain.flatMap (fun m => itemsBytes mem m.items)).drop skip := by
  induction chain generalizing skip with
  | nil => simp [copyMarshallers]
  | cons m rest ih => rw [copyMarshallers, copyItems_spec, ih, List.flatMap_cons, List.drop_append]

/-- Nothing was taken back from any marshaller. -/
def Untouched (accounts : List Account) : Prop := forall account, account ∈ accounts -> account.dropped = 0

theorem Untouched.give {accounts : List Account} (untouched : Untouched accounts) (k size : Nat) :
    Untouched (accounts.modify k (.give size)) := by
  intro account member
  rcases List.mem_iff_getElem?.mp member with ⟨i, found⟩
  rw [List.getElem?_modify] at found
  rcases Option.map_eq_some_iff.mp found with ⟨before, old, same⟩
  have kept := untouched before (List.mem_of_getElem? old)
  rw [← same]
  split
  · exact kept
  · exact kept

theorem Untouched.append {accounts : List Account} (untouched : Untouched accounts) :
    Untouched (accounts ++ [⟨0, 0⟩]) := by
  intro account member
  rcases List.mem_append.mp member with old | new
  · exact untouched account old
  · rw [List.mem_singleton.mp new]

theorem Untouched.step {accounts : List Account} (untouched : Untouched accounts) {op : MarshallerOp}
    (adds : op.adds = true) : Untouched (accountStep accounts op) := by
  cases op with
  | unreserveSpace k size => cases adds
  | getSubmarshaller k => exact untouched.append
  | getPtrSubmarshaller k is64bit => exact (untouched.give k _).append
  | write addr bytes => exact untouched
  | setBase base => exact untouched
  | flush => exact untouched
  | reset => exact Untouched.append (fun account member => absurd member List.not_mem_nil)
  | _ => exact untouched.give _ _

theorem accountsOf_untouched (ops : List MarshallerOp) (adds : forall op, op ∈ ops -> op.adds = true) :
    Untouched (accountsOf ops) := by
  have start : Untouched [⟨0, 0⟩] := Untouched.append (fun account member => absurd member List.not_mem_nil)
  unfold accountsOf
  generalize [(⟨0, 0⟩ : Account)] = accounts at start
  induction ops generalizing accounts with
  | nil => exact start
  | cons op rest ih =>
      have next := start.step (adds op List.mem_cons_self)
      exact ih (fun other member => adds other (List.mem_cons_of_mem op member)) _ next

variable {d : SpiceMarshallerData}

theorem totalSize_of_adds {malloc : Nat -> Nat} {mem : Nat -> UInt8} {ops : List MarshallerOp}
    (adds : forall op, op ∈ ops -> op.adds = true)
    (ran : run (marshallerStep malloc) (spiceMarshallerNew malloc mem) ops = some d) :
    d.totalSize = (messageBytes d).length % 2 ^ 64 := by
  have audited := run_audited mem ops ran
  have untouched := accountsOf_untouched ops adds
  have nothing : forall account, account ∈ accountsOf ops -> account.dropped % 2 ^ 64 = 0 := by
    intro account member
    rw [untouched account member, Nat.zero_mod]
  rw [audited.total, sum_given audited.chain nothing, messageBytes_length]

variable {later : List SpiceMarshaller} {root : SpiceMarshaller}

theorem linearize_single
    {item : MarshallerItem} (chain : d.marshallers = root :: later) (single : root.items = [item]) (skip : UInt64) :
    Exists fun result => spiceMarshallerLinearize d skip = some result ∧ result.freeRes = false ∧
      result.len = item.len - skip.toNat ∧
      result.bytes d.mem = blockBytes d.mem (item.data + skip.toNat) (item.len - skip.toNat) ∧
      forall bytes, result.data ≠ .allocated bytes := by
  unfold spiceMarshallerLinearize
  simp only [chain, single]
  by_cases skipped : item.len ≤ skip.toNat
  · rw [if_pos skipped]
    have none : item.len - skip.toNat = 0 := by omega
    exact ⟨_, rfl, rfl, none.symm, by rw [none]; rfl, fun bytes same => by cases same⟩
  · rw [if_neg skipped]
    exact ⟨_, rfl, rfl, rfl, rfl, fun bytes same => by cases same⟩

theorem drop_single {item : MarshallerItem} (chain : d.marshallers = root :: later) (single : root.items = [item])
    (skip : Nat) :
    (messageBytes d).drop skip = blockBytes d.mem (item.data + skip) (item.len - skip) ++
      (later.flatMap (fun m => itemsBytes d.mem m.items)).drop (skip - item.len) := by
  have whole : messageBytes d =
      blockBytes d.mem item.data item.len ++ later.flatMap (fun m => itemsBytes d.mem m.items) := by
    simp [messageBytes, chain, single, itemsBytes]
  rw [whole, List.drop_append, blockBytes_length, blockBytes_drop]

theorem size_of_total {total length : Nat} (same : total = length % 2 ^ 64) {skip : UInt64}
    (left : skip.toNat ≤ length) (small : length - skip.toNat < 2 ^ 64) :
    (UInt64.ofNat total - skip).toNat = length - skip.toNat := by
  have bound := skip.toNat_lt
  rw [UInt64.toNat_sub, UInt64.toNat_ofNat', same]
  omega

theorem listed_of_bytes {skip : UInt64} {result : Linearized}
    (bytes : result.bytes d.mem = (messageBytes d).drop skip.toNat) (nVec : Nat)
    (room : (spiceMarshallerFillIovec d nVec skip.toNat).length < nVec) :
    iovecBytes d.mem (spiceMarshallerFillIovec d nVec skip.toNat) = result.bytes d.mem := by
  rw [bytes]
  exact (fillIovec_covers d nVec skip.toNat).2.2 room

/-- When the shortcut returns the message. -/
theorem linearize_single_iff
    {item : MarshallerItem} (chain : d.marshallers = root :: later) (single : root.items = [item]) (skip : UInt64) :
    (Exists fun result => spiceMarshallerLinearize d skip = some result ∧ LinearizesWhole d skip result) <->
      (messageBytes d).length ≤ max item.len skip.toNat := by
  rcases linearize_single chain single skip with ⟨result, returned, notFreed, len, bytes, notAllocated⟩
  have rest := drop_single chain single skip.toNat
  have lengths := congrArg List.length rest
  rw [List.length_drop, List.length_append, blockBytes_length] at lengths
  constructor
  · rintro ⟨other, same, whole⟩
    rw [returned] at same
    cases same
    have given := whole.len
    rw [len, List.length_drop] at given
    omega
  · intro fits
    have nothing : (later.flatMap (fun m => itemsBytes d.mem m.items)).drop (skip.toNat - item.len) = [] := by
      apply List.eq_nil_of_length_eq_zero
      omega
    rw [nothing, List.append_nil, ← bytes] at rest
    refine ⟨result, returned, ⟨rest.symm, ?_, listed_of_bytes rest.symm, ?_⟩⟩
    · rw [len, List.length_drop]
      omega
    · constructor
      · intro freed
        rw [notFreed] at freed
        cases freed
      · rintro ⟨block, allocated⟩
        exact absurd allocated (notAllocated block)

/-- The general path copies the bytes. -/
theorem linearize_copy
    (chain : d.marshallers = root :: later) (several : forall item, root.items ≠ [item]) (skip : UInt64) :
    spiceMarshallerLinearize d skip =
      if ((messageBytes d).drop skip.toNat).length ≤ (UInt64.ofNat d.totalSize - skip).toNat then
        some {
          data := if (UInt64.ofNat d.totalSize - skip).toNat = 0 then .null
            else .allocated ((messageBytes d).drop skip.toNat)
          len := (UInt64.ofNat d.totalSize - skip).toNat
          freeRes := true }
      else none := by
  have copied : copyMarshallers d.mem d.marshallers skip.toNat = (messageBytes d).drop skip.toNat :=
    copyMarshallers_spec d.mem d.marshallers skip.toNat
  unfold spiceMarshallerLinearize
  rw [← copied]
  -- the catch-all branch is the one taken, by `several`
  simp only [chain]

/-- When it returns the message. -/
theorem linearize_copy_iff (total : d.totalSize = (messageBytes d).length % 2 ^ 64)
    (chain : d.marshallers = root :: later)
    (several : forall item, root.items ≠ [item]) (skip : UInt64) :
    (Exists fun result => spiceMarshallerLinearize d skip = some result ∧ LinearizesWhole d skip result) <->
      skip.toNat < (messageBytes d).length ∧ (messageBytes d).length - skip.toNat < 2 ^ 64 := by
  have copy := linearize_copy chain several skip
  constructor
  · rintro ⟨result, returned, whole⟩
    rw [copy] at returned
    split at returned
    · cases returned
      have len := whole.len
      have bound := (UInt64.ofNat d.totalSize - skip).toNat_lt
      rcases whole.free.mp rfl with ⟨block, allocated⟩
      simp only [List.length_drop] at len
      split at allocated
      · cases allocated
      · omega
    · cases returned
  · rintro ⟨left, small⟩
    have size := size_of_total total (Nat.le_of_lt left) small
    have positive : Not ((messageBytes d).length - skip.toNat = 0) := by omega
    rw [size, List.length_drop, if_pos (Nat.le_refl _), if_neg positive] at copy
    refine ⟨_, copy, ⟨rfl, ?_, listed_of_bytes rfl, ?_⟩⟩
    · rw [List.length_drop]
    · exact iff_of_true rfl ⟨_, rfl⟩

/-- After any additions, references, submarshallers, writes, flushes and resets, and for every number of bytes to skip,
the message is returned whole and the flag tells whether a block was allocated, if and only if the shortcut for one item
leaves nothing out and the copy has something to copy. -/
theorem linearize_whole_iff (malloc : Nat -> Nat) (mem : Nat -> UInt8) (ops : List MarshallerOp)
    (d : SpiceMarshallerData) (adds : forall op, op ∈ ops -> op.adds = true)
    (ran : run (marshallerStep malloc) (spiceMarshallerNew malloc mem) ops = some d) (skip : UInt64) :
    (Exists fun result => spiceMarshallerLinearize d skip = some result ∧ LinearizesWhole d skip result) <->
      FitsShortcut d skip := by
  have total := totalSize_of_adds adds ran
  cases chain : d.marshallers with
  | nil =>
      have nothing : messageBytes d = [] := by rw [messageBytes, chain, List.flatMap_nil]
      simp [spiceMarshallerLinearize, FitsShortcut, chain, nothing]
  | cons root later =>
      by_cases single : Exists fun item => root.items = [item]
      · rcases single with ⟨item, single⟩
        have condition : FitsShortcut d skip <-> (messageBytes d).length ≤ max item.len skip.toNat := by
          simp [FitsShortcut, chain, single]
        rw [condition]
        exact linearize_single_iff chain single skip
      · have several : forall item, root.items ≠ [item] := fun item same => single ⟨item, same⟩
        have condition : FitsShortcut d skip <->
            skip.toNat < (messageBytes d).length ∧ (messageBytes d).length - skip.toNat < 2 ^ 64 := by
          unfold FitsShortcut
          rw [chain]
          simp only [List.head?_cons, Option.map_some]
          split
          · next item same => exact absurd (Option.some.inj same) (several item)
          · exact Iff.rfl
        rw [condition]
        exact linearize_copy_iff total chain several skip

/-- Two bytes, a block of the caller, and a submarshaller. -/
theorem linearize_whole_two_items :
    Exists fun d => run (marshallerStep (fun n => 10000 * n)) (spiceMarshallerNew (fun n => 10000 * n) (fun _ => 7))
      [.addUint16 0 513, .addRef 0 5000 3, .getSubmarshaller 0, .addUint8 1 9] = some d ∧
      Exists fun result => spiceMarshallerLinearize d 1 = some result ∧ LinearizesWhole d 1 result := by
  have runs : (run (marshallerStep (fun n => 10000 * n)) (spiceMarshallerNew (fun n => 10000 * n) (fun _ => 7))
      [.addUint16 0 513, .addRef 0 5000 3, .getSubmarshaller 0, .addUint8 1 9]).map
        (fun d => (d.marshallers.head?.map (fun m => m.items.length), (messageBytes d).length)) =
        some (some 2, 6) := by decide
  rcases Option.map_eq_some_iff.mp runs with ⟨d, ran, shape⟩
  simp only [Prod.mk.injEq] at shape
  refine ⟨d, ran, (linearize_whole_iff _ _ _ d (by decide) ran 1).mpr ?_⟩
  unfold FitsShortcut
  split
  · next item single =>
      have counted := shape.1
      rw [← Function.comp_def, ← Option.map_map, single] at counted
      cases counted
  · rw [shape.2]
    decide

/-- The root holds two bytes and a pointer in one item, and the submarshaller that the pointer is for holds three more.
-/
theorem linearize_drops_submarshaller :
    Not (forall (malloc : Nat -> Nat) (mem : Nat -> UInt8) (ops : List MarshallerOp) (d : SpiceMarshallerData),
      (forall op, op ∈ ops -> op.adds = true) ->
      run (marshallerStep malloc) (spiceMarshallerNew malloc mem) ops = some d -> forall skip : UInt64,
      Exists fun result => spiceMarshallerLinearize d skip = some result ∧ LinearizesWhole d skip result) := by
  intro claim
  have runs : (run (marshallerStep (fun n => 10000 * n)) (spiceMarshallerNew (fun n => 10000 * n) (fun _ => 7))
      [.addUint16 0 513, .getPtrSubmarshaller 0 false, .addRef 1 5000 3]).map
        (fun d => ((spiceMarshallerLinearize d 0).map (fun result => result.len), (messageBytes d).length)) =
        some (some 6, 9) := by decide
  rcases Option.map_eq_some_iff.mp runs with ⟨d, ran, shape⟩
  simp only [Prod.mk.injEq] at shape
  rcases claim _ _ _ d (by decide) ran 0 with ⟨result, returned, whole⟩
  have len := whole.len
  have sent := shape.1
  rw [returned] at sent
  simp only [Option.map_some, Option.some.injEq] at sent
  rw [sent, List.length_drop, shape.2] at len
  simp at len

end Marshaller
end Spice
