import Mathlib.Algebra.Order.BigOperators.Group.List
import Mathlib.Algebra.Order.Group.Nat
import Spice.Marshaller.Accounting

namespace Spice
namespace Marshaller

open Lib

/-!
# What the iovecs cover

`spice_marshaller_fill_iovec` skips a number of bytes and then lists the
memory of the items, as far as the vector has room.  Whatever the totals say,
the listed memory is a first part of the remaining bytes, and all of them if
the vector was not filled up.
-/

def blockBytes (mem : Nat -> UInt8) (addr len : Nat) : List UInt8 :=
  (List.range len).map (fun i => mem (addr + i))

def itemsBytes (mem : Nat -> UInt8) (items : List MarshallerItem) : List UInt8 :=
  items.flatMap (fun item => blockBytes mem item.data item.len)

/-- The memory an iovec array lists. -/
def iovecBytes (mem : Nat -> UInt8) (vec : List Iovec) : List UInt8 :=
  vec.flatMap (fun entry => blockBytes mem entry.iovBase entry.iovLen)

/-- The message: the items of the whole chain. -/
def messageBytes (d : SpiceMarshallerData) : List UInt8 :=
  d.marshallers.flatMap (fun m => itemsBytes d.mem m.items)

/-- The write loop of `red_peer_handle_outgoing`: each round fills the vector
from the position reached, and the stream takes at most `n` of its bytes. -/
def transmit (d : SpiceMarshallerData) (nVec : Nat) : Nat -> List Nat -> List UInt8
  | _, [] => []
  | pos, n :: rest =>
      let bytes := iovecBytes d.mem (spiceMarshallerFillIovec d nVec pos)
      bytes.take n ++ transmit d nVec (pos + min n bytes.length) rest

theorem blockBytes_length (mem : Nat -> UInt8) (addr len : Nat) : (blockBytes mem addr len).length = len := by
  simp [blockBytes]

theorem blockBytes_drop (mem : Nat -> UInt8) (addr len skip : Nat) :
    (blockBytes mem addr len).drop skip = blockBytes mem (addr + skip) (len - skip) := by
  apply List.ext_getElem
  · simp [blockBytes]
  · intro i _ _
    simp [blockBytes, Nat.add_assoc]

theorem itemsBytes_length (mem : Nat -> UInt8) (items : List MarshallerItem) :
    (itemsBytes mem items).length = (items.map (fun item => item.len)).sum := by
  simp only [itemsBytes, List.length_flatMap, blockBytes_length]

/-- What the inner loop has listed: everything, or a first part that fills the vector. -/
theorem fillItems_spec (mem : Nat -> UInt8) (nVec : Nat) (items : List MarshallerItem) (skip : Nat)
    (vec : List Iovec) (room : vec.length ≤ nVec) :
    match fillItems nVec items skip vec with
    | .ok (rest, out) =>
        out.length ≤ nVec ∧ rest = skip - (itemsBytes mem items).length ∧
          iovecBytes mem out = iovecBytes mem vec ++ (itemsBytes mem items).drop skip
    | .error out =>
        out.length = nVec ∧
          iovecBytes mem out <+: iovecBytes mem vec ++ (itemsBytes mem items).drop skip := by
  induction items generalizing skip vec with
  | nil => simp [fillItems, itemsBytes, room]
  | cons item rest ih =>
      have split : itemsBytes mem (item :: rest) =
          blockBytes mem item.data item.len ++ itemsBytes mem rest := rfl
      rw [fillItems]
      by_cases skipped : item.len ≤ skip
      · rw [if_pos skipped]
        have step := ih (skip - item.len) vec room
        have bytes : (itemsBytes mem (item :: rest)).drop skip =
            (itemsBytes mem rest).drop (skip - item.len) := by
          rw [split, List.drop_append, blockBytes_length,
            List.drop_of_length_le (by rw [blockBytes_length]; exact skipped), List.nil_append]
        rw [bytes, split, List.length_append, blockBytes_length, Nat.sub_add_eq]
        exact step
      · rw [if_neg skipped]
        by_cases full : vec.length = nVec
        · rw [if_pos full]
          exact ⟨full, List.prefix_append _ _⟩
        · rw [if_neg full]
          have step := ih 0 (vec ++ [⟨item.data + skip, item.len - skip⟩])
            (by rw [List.length_append, List.length_singleton]; omega)
          have bytes : iovecBytes mem vec ++ (itemsBytes mem (item :: rest)).drop skip =
              iovecBytes mem (vec ++ [⟨item.data + skip, item.len - skip⟩]) ++
                (itemsBytes mem rest).drop 0 := by
            have none : skip - item.len = 0 := by omega
            rw [split, List.drop_append, blockBytes_length, none, blockBytes_drop]
            simp [iovecBytes]
          have gone : skip - (itemsBytes mem (item :: rest)).length = 0 := by
            rw [split, List.length_append, blockBytes_length]
            omega
          rw [bytes, gone]
          rw [Nat.zero_sub] at step
          exact step

/-- The vector covers the message behind what is skipped. -/
theorem fillMarshallers_spec (mem : Nat -> UInt8) (nVec : Nat) (chain : List SpiceMarshaller) (skip : Nat)
    (vec : List Iovec) (room : vec.length ≤ nVec) :
    let out := fillMarshallers nVec chain skip vec
    let all := iovecBytes mem vec ++ (chain.flatMap (fun m => itemsBytes mem m.items)).drop skip
    out.length ≤ nVec ∧ iovecBytes mem out <+: all ∧ (out.length < nVec -> iovecBytes mem out = all) := by
  induction chain generalizing skip vec with
  | nil => simp [fillMarshallers, room]
  | cons m rest ih =>
      have inner := fillItems_spec mem nVec m.items skip vec room
      have bytes : ((m :: rest).flatMap (fun m => itemsBytes mem m.items)).drop skip =
          (itemsBytes mem m.items).drop skip ++
            (rest.flatMap (fun m => itemsBytes mem m.items)).drop (skip - (itemsBytes mem m.items).length) := by
        rw [List.flatMap_cons, List.drop_append]
      simp only [fillMarshallers, bytes, ← List.append_assoc]
      split
      · next full filled =>
          rw [filled] at inner
          refine ⟨Nat.le_of_eq inner.1, inner.2.trans (List.prefix_append _ _), fun less => ?_⟩
          exact absurd inner.1 (Nat.ne_of_lt less)
      · next skipRest listed filled =>
          rw [filled] at inner
          rcases inner with ⟨listedRoom, skipped, listedBytes⟩
          subst skipped
          rw [← listedBytes]
          exact ih _ listed listedRoom

/-- The vector lists a first part of the bytes after the skipped ones, and all
of them if it has room left. -/
theorem fillIovec_covers (d : SpiceMarshallerData) (nVec skip : Nat) :
    (spiceMarshallerFillIovec d nVec skip).length ≤ nVec ∧
      iovecBytes d.mem (spiceMarshallerFillIovec d nVec skip) <+: (messageBytes d).drop skip ∧
      ((spiceMarshallerFillIovec d nVec skip).length < nVec ->
        iovecBytes d.mem (spiceMarshallerFillIovec d nVec skip) = (messageBytes d).drop skip) :=
  fillMarshallers_spec d.mem nVec d.marshallers skip [] (Nat.zero_le nVec)

def NoneEmpty (vec : List Iovec) : Prop := forall entry, entry ∈ vec -> 0 < entry.iovLen

theorem NoneEmpty.append {vec : List Iovec} (positive : NoneEmpty vec) {entry : Iovec}
    (len : 0 < entry.iovLen) : NoneEmpty (vec ++ [entry]) := by
  intro other member
  rcases List.mem_append.mp member with old | new
  · exact positive other old
  · rw [List.mem_singleton.mp new]
    exact len

/-- No entry of the vector is empty. -/
theorem fillItems_noneEmpty (nVec : Nat) (items : List MarshallerItem) (skip : Nat) (vec : List Iovec)
    (positive : NoneEmpty vec) :
    match fillItems nVec items skip vec with
    | .ok (_, out) => NoneEmpty out
    | .error out => NoneEmpty out := by
  induction items generalizing skip vec with
  | nil => exact positive
  | cons item rest ih =>
      rw [fillItems]
      by_cases skipped : item.len ≤ skip
      · rw [if_pos skipped]
        exact ih (skip - item.len) vec positive
      · rw [if_neg skipped]
        by_cases full : vec.length = nVec
        · rw [if_pos full]
          exact positive
        · rw [if_neg full]
          refine ih 0 _ (positive.append ?_)
          show 0 < item.len - skip
          omega

theorem fillMarshallers_noneEmpty (nVec : Nat) (chain : List SpiceMarshaller) (skip : Nat)
    (vec : List Iovec) (positive : NoneEmpty vec) : NoneEmpty (fillMarshallers nVec chain skip vec) := by
  induction chain generalizing skip vec with
  | nil => exact positive
  | cons m rest ih =>
      have inner := fillItems_noneEmpty nVec m.items skip vec positive
      simp only [fillMarshallers]
      split
      · next full filled =>
          rw [filled] at inner
          exact inner
      · next skipRest listed filled =>
          rw [filled] at inner
          exact ih skipRest listed inner

/-- With room there is something to write. -/
theorem fillIovec_progress (d : SpiceMarshallerData) {nVec skip : Nat} (room : 0 < nVec)
    (remain : skip < (messageBytes d).length) :
    0 < (iovecBytes d.mem (spiceMarshallerFillIovec d nVec skip)).length := by
  have covers := fillIovec_covers d nVec skip
  have positive : NoneEmpty (spiceMarshallerFillIovec d nVec skip) :=
    fillMarshallers_noneEmpty nVec d.marshallers skip [] (fun _ member => absurd member List.not_mem_nil)
  cases listed : spiceMarshallerFillIovec d nVec skip with
  | nil =>
      rw [listed] at covers
      have all := congrArg List.length (covers.2.2 room)
      rw [List.length_drop] at all
      have none : (iovecBytes d.mem []).length = 0 := rfl
      omega
  | cons entry rest =>
      rw [listed] at positive
      have len := positive entry List.mem_cons_self
      simp only [iovecBytes, List.flatMap_cons, List.length_append, blockBytes_length]
      omega

theorem transmit_round (d : SpiceMarshallerData) (nVec pos n : Nat) :
    let bytes := iovecBytes d.mem (spiceMarshallerFillIovec d nVec pos)
    bytes.take n ++ (messageBytes d).drop (pos + min n bytes.length) = (messageBytes d).drop pos := by
  intro bytes
  have covers : bytes <+: (messageBytes d).drop pos := (fillIovec_covers d nVec pos).2.1
  rcases covers with ⟨later, whole⟩
  have sent : bytes.take n = ((messageBytes d).drop pos).take (min n bytes.length) := by
    rw [← whole, List.take_append_of_le_length (Nat.min_le_right _ _), List.take_eq_take_min]
  rw [sent, ← List.drop_drop, List.take_append_drop]

theorem transmit_prefix_of_message (d : SpiceMarshallerData) (nVec pos : Nat) (writes : List Nat) :
    transmit d nVec pos writes <+: (messageBytes d).drop pos := by
  induction writes generalizing pos with
  | nil => exact List.nil_prefix
  | cons n rest ih =>
      rw [← transmit_round d nVec pos n]
      exact (List.prefix_append_right_inj _).mpr (ih _)

/-- Writes of any size transmit the whole message. -/
theorem transmit_all (d : SpiceMarshallerData) {nVec : Nat} (room : 0 < nVec) (pos : Nat)
    (writes : List Nat) (positive : forall n, n ∈ writes -> 0 < n)
    (enough : (messageBytes d).length ≤ pos + writes.length) :
    transmit d nVec pos writes = (messageBytes d).drop pos := by
  induction writes generalizing pos with
  | nil =>
      have done : (messageBytes d).length ≤ pos := enough
      rw [List.drop_of_length_le done]
      rfl
  | cons n rest ih =>
      rw [List.length_cons] at enough
      by_cases remain : pos < (messageBytes d).length
      · have progress := fillIovec_progress d room remain
        have first := positive n List.mem_cons_self
        have step := ih (pos + min n (iovecBytes d.mem (spiceMarshallerFillIovec d nVec pos)).length)
          (fun other member => positive other (List.mem_cons_of_mem n member)) (by omega)
        rw [← transmit_round d nVec pos n, ← step]
        rfl
      · have sent := transmit_prefix_of_message d nVec pos (n :: rest)
        rw [List.drop_of_length_le (by omega)] at sent ⊢
        exact List.prefix_nil.mp sent

/-- What the totals and the iovecs of a chain promise. -/
structure AccountsAndCovers (d : SpiceMarshallerData) : Prop where
  totals : forall m, m ∈ d.marshallers -> m.totalSize = m.held
  total : d.totalSize = (d.marshallers.map SpiceMarshaller.held).sum
  covers : forall nVec skip, skip ≤ d.totalSize ->
    iovecBytes d.mem (spiceMarshallerFillIovec d nVec skip) <+: (messageBytes d).drop skip ∧
      ((spiceMarshallerFillIovec d nVec skip).length < nVec ->
        iovecBytes d.mem (spiceMarshallerFillIovec d nVec skip) = (messageBytes d).drop skip)
  transmits : forall nVec writes, 0 < nVec -> (forall n, n ∈ writes -> 0 < n) ->
    transmit d nVec 0 writes <+: messageBytes d ∧
      (d.totalSize ≤ writes.length -> transmit d nVec 0 writes = messageBytes d)

/-- Nothing was taken back, up to multiples of 2^64, and what is held fits a `size_t`. -/
def NothingDropped (accounts : List Account) : Prop :=
  (forall account, account ∈ accounts -> account.dropped % 2 ^ 64 = 0) ∧
    (accounts.map Account.held).sum < 2 ^ 64

section Exactness

variable {accounts : List Account} {chain : List SpiceMarshaller}

theorem held_eq (balanced : List.Forall₂ Balanced accounts chain) :
    accounts.map Account.held = chain.map SpiceMarshaller.held := by
  induction balanced with
  | nil => rfl
  | cons head _ ih =>
      have same := head.held
      rw [List.map_cons, List.map_cons, ih, Account.held]
      congr 1
      omega

theorem totals_iff (balanced : List.Forall₂ Balanced accounts chain) : (forall m, m ∈ chain -> m.totalSize = m.held) <->
      forall account, account ∈ accounts -> account.dropped % 2 ^ 64 = 0 ∧ account.held < 2 ^ 64 := by
  induction balanced with
  | nil => simp
  | cons head _ ih =>
      rw [List.forall_mem_cons, List.forall_mem_cons, ih]
      have same := head.held
      have total := head.total
      refine and_congr_left (fun _ => ?_)
      rw [total, Account.held]
      omega

theorem sum_given (balanced : List.Forall₂ Balanced accounts chain)
    (nothing : forall account, account ∈ accounts -> account.dropped % 2 ^ 64 = 0) :
    (accounts.map (fun account => account.given)).sum % 2 ^ 64 = (chain.map SpiceMarshaller.held).sum % 2 ^ 64 := by
  induction balanced with
  | nil => rfl
  | cons head _ ih =>
      have same := head.held
      have first := nothing _ List.mem_cons_self
      have rest := ih (fun account member => nothing account (List.mem_cons_of_mem _ member))
      simp only [List.map_cons, List.sum_cons]
      omega

theorem held_le_sum {account : Account} (member : account ∈ accounts) :
    account.held ≤ (accounts.map Account.held).sum :=
  List.le_sum_of_mem (List.mem_map_of_mem member)

end Exactness

theorem messageBytes_length (d : SpiceMarshallerData) :
    (messageBytes d).length = (d.marshallers.map SpiceMarshaller.held).sum := by
  simp only [messageBytes, List.length_flatMap, itemsBytes_length]
  rfl

/-- With every sequence of calls on any tree of marshallers, the totals are
the bytes held and the iovecs transmit them exactly once, if and only if
nothing was taken back since the last reset and the bytes held fit a `size_t`. -/
theorem accountsAndCovers_iff (malloc : Nat -> Nat) (mem : Nat -> UInt8) (ops : List MarshallerOp)
    (d : SpiceMarshallerData)
    (ran : run (marshallerStep malloc) (spiceMarshallerNew malloc mem) ops = some d) :
    AccountsAndCovers d <-> NothingDropped (accountsOf ops) := by
  have audited := run_audited mem ops ran
  have held := held_eq audited.chain
  constructor
  · intro promise
    have each := (totals_iff audited.chain).mp promise.totals
    refine ⟨fun account member => (each account member).1, ?_⟩
    rw [held, ← promise.total, audited.total]
    exact Nat.mod_lt _ (Nat.two_pow_pos 64)
  · rintro ⟨nothing, small⟩
    have total : d.totalSize = (d.marshallers.map SpiceMarshaller.held).sum := by
      rw [audited.total, sum_given audited.chain nothing, ← held]
      exact Nat.mod_eq_of_lt small
    refine ⟨(totals_iff audited.chain).mpr (fun account member => ⟨nothing account member, ?_⟩), total,
      fun nVec skip _ => (fillIovec_covers d nVec skip).2, fun nVec writes room positive => ⟨?_, fun enough => ?_⟩⟩
    · exact Nat.lt_of_le_of_lt (held_le_sum member) small
    · exact transmit_prefix_of_message d nVec 0 writes
    · refine transmit_all d room 0 writes positive ?_
      rw [messageBytes_length, ← total, Nat.zero_add]
      exact enough

/-- Eight bytes are reserved and four of them taken back: the item holds four
bytes, the total still says eight. -/
theorem accountsAndCovers_fails_after_unreserve :
    Not (forall (malloc : Nat -> Nat) (mem : Nat -> UInt8) (ops : List MarshallerOp)
      (d : SpiceMarshallerData),
      run (marshallerStep malloc) (spiceMarshallerNew malloc mem) ops = some d -> AccountsAndCovers d) := by
  intro claim
  have totals : (run (marshallerStep (fun n => 10000 * n)) (spiceMarshallerNew (fun n => 10000 * n) (fun _ => 0))
      [.reserveSpace 0 8, .unreserveSpace 0 4]).map
        (fun d => (d.totalSize, (d.marshallers.map SpiceMarshaller.held).sum)) = some (8, 4) := by decide
  rcases Option.map_eq_some_iff.mp totals with ⟨d, ran, sizes⟩
  have total := (claim _ _ _ d ran).total
  simp only [Prod.mk.injEq] at sizes
  omega

/-- A header, a pointer to a submarshaller, referenced data in it, and space
taken back before a reset. -/
theorem accountsAndCovers_after_reset :
    Exists fun d => run (marshallerStep (fun n => 10000 * n)) (spiceMarshallerNew (fun n => 10000 * n) (fun _ => 0))
      [.reserveSpace 0 8, .unreserveSpace 0 4, .reset, .addUint16 0 513, .getPtrSubmarshaller 0 false,
        .addRef 1 5000 3, .flush] = some d ∧ AccountsAndCovers d := by
  have runs : (run (marshallerStep (fun n => 10000 * n)) (spiceMarshallerNew (fun n => 10000 * n) (fun _ => 0))
      [.reserveSpace 0 8, .unreserveSpace 0 4, .reset, .addUint16 0 513, .getPtrSubmarshaller 0 false,
        .addRef 1 5000 3, .flush]).isSome := by decide
  rcases Option.isSome_iff_exists.mp runs with ⟨d, ran⟩
  refine ⟨d, ran, (accountsAndCovers_iff _ _ _ d ran).mpr ⟨?_, ?_⟩⟩
  · decide
  · decide

end Marshaller
end Spice
