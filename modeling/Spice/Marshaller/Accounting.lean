import Mathlib.Data.List.Forall2
import Mathlib.Tactic.Common
import Spice.Marshaller.Model

namespace Spice
namespace Marshaller

open Lib

/-!
# Size accounting

Each marshaller of the chain has an account: the bytes given to it since the
last reset, and the bytes taken back by `spice_marshaller_unreserve_space`.
The accounts are read off the calls.  What the code keeps is that a total is
the sum of the bytes given, while the items hold what was given and not taken
back, so the totals are right exactly while nothing was taken back.
-/

/-- The bytes given to a marshaller and taken back from it. -/
structure Account where
  given : Nat
  dropped : Nat
  deriving DecidableEq, Repr

namespace Account

def give (size : Nat) (account : Account) : Account := { account with given := account.given + size }

def drop (size : Nat) (account : Account) : Account := { account with dropped := account.dropped + size }

def held (account : Account) : Nat := account.given - account.dropped

end Account

def chunkBytes (chunks : List (Nat × Nat)) : Nat :=
  (chunks.map (fun chunk => if chunk.1 = 0 then 0 else chunk.2)).sum

def accountStep (accounts : List Account) : MarshallerOp -> List Account
  | .reserveSpace k size => accounts.modify k (.give size)
  | .unreserveSpace k size => accounts.modify k (.drop size)
  | .add k data => accounts.modify k (.give data.length)
  | .addRef k data size => accounts.modify k (.give (chunkBytes [(data, size)]))
  | .addRefFull k data size _ => accounts.modify k (.give (chunkBytes [(data, size)]))
  | .addRefChunks k chunks => accounts.modify k (.give (chunkBytes chunks))
  | .addUint64 k _ => accounts.modify k (.give 8)
  | .addInt64 k _ => accounts.modify k (.give 8)
  | .addUint32 k _ => accounts.modify k (.give 4)
  | .addInt32 k _ => accounts.modify k (.give 4)
  | .addUint16 k _ => accounts.modify k (.give 2)
  | .addInt16 k _ => accounts.modify k (.give 2)
  | .addUint8 k _ => accounts.modify k (.give 1)
  | .addInt8 k _ => accounts.modify k (.give 1)
  | .getSubmarshaller _ => accounts ++ [⟨0, 0⟩]
  | .getPtrSubmarshaller k is64bit =>
      accounts.modify k (.give (if is64bit then 8 else 4)) ++ [⟨0, 0⟩]
  | .write _ _ => accounts
  | .setBase _ => accounts
  | .flush => accounts
  | .reset => [⟨0, 0⟩]

/-- The accounts after a list of calls on a new chain. -/
def accountsOf (ops : List MarshallerOp) : List Account :=
  ops.foldl accountStep [⟨0, 0⟩]

def SpiceMarshaller.held (m : SpiceMarshaller) : Nat := (m.items.map (fun item => item.len)).sum

/-- An account is that of a marshaller. -/
structure Balanced (account : Account) (m : SpiceMarshaller) : Prop where
  held : m.held + account.dropped = account.given
  total : m.totalSize = account.given % 2 ^ 64

/-- The accounts are those of the chain. -/
structure Audited (accounts : List Account) (d : SpiceMarshallerData) : Prop where
  chain : List.Forall₂ Balanced accounts d.marshallers
  total : d.totalSize = (accounts.map (fun account => account.given)).sum % 2 ^ 64

theorem sizeAdd_mod {total given : Nat} (size : Nat) (same : total = given % 2 ^ 64) :
    sizeAdd total size = (given + size) % 2 ^ 64 := by
  rw [sizeAdd, same, Nat.mod_add_mod]

@[simp] theorem littleEndian_length (n value : Nat) : (littleEndian n value).length = n := by
  induction n generalizing value with
  | zero => rfl
  | succ n ih => rw [littleEndian, List.length_cons, ih]

theorem sum_given_modify (size : Nat) {accounts : List Account} {k : Nat} (inside : k < accounts.length) :
    ((accounts.modify k (.give size)).map (fun account => account.given)).sum =
      (accounts.map (fun account => account.given)).sum + size := by
  induction accounts generalizing k with
  | nil => exact absurd inside (Nat.not_lt_zero k)
  | cons head tail ih =>
      cases k with
      | zero =>
          simp only [List.modify_zero_cons, List.map_cons, List.sum_cons, Account.give]
          omega
      | succ k =>
          simp only [List.modify_succ_cons, List.map_cons, List.sum_cons]
          rw [ih (Nat.lt_of_succ_lt_succ inside)]
          omega

theorem sum_given_drop (size k : Nat) (accounts : List Account) :
    ((accounts.modify k (.drop size)).map (fun account => account.given)).sum =
      (accounts.map (fun account => account.given)).sum := by
  induction accounts generalizing k with
  | nil => simp
  | cons head tail ih =>
      cases k with
      | zero => simp [Account.drop]
      | succ k => simp [ih]

/-- A change of one marshaller balances with the change of its account. -/
theorem balanced_modify {accounts : List Account} {chain : List SpiceMarshaller}
    (balanced : List.Forall₂ Balanced accounts chain) {k : Nat} {m next : SpiceMarshaller}
    (found : chain[k]? = some m) (change : Account -> Account)
    (keeps : forall account, Balanced account m -> Balanced (change account) next) :
    List.Forall₂ Balanced (accounts.modify k change) (chain.set k next) := by
  induction balanced generalizing k with
  | nil => simp at found
  | cons head tail ih =>
      cases k with
      | zero =>
          simp only [List.getElem?_cons_zero, Option.some.injEq] at found
          subst found
          exact List.Forall₂.cons (keeps _ head) tail
      | succ k =>
          simp only [List.getElem?_cons_succ] at found
          exact List.Forall₂.cons head (ih found)

namespace Audited

variable {accounts : List Account} {d : SpiceMarshallerData}

theorem length_eq (audited : Audited accounts d) : accounts.length = d.marshallers.length :=
  audited.chain.length_eq

theorem congr (audited : Audited accounts d) {other : SpiceMarshallerData}
    (chain : other.marshallers = d.marshallers) (total : other.totalSize = d.totalSize) : Audited accounts other where
  chain := by rw [chain]; exact audited.chain
  total := by rw [total]; exact audited.total

theorem give_zero (audited : Audited accounts d) (k : Nat) : Audited (accounts.modify k (.give 0)) d := by
  have same : accounts.modify k (.give 0) = accounts := List.modify_id k accounts
  rw [same]
  exact audited

theorem drop_zero (audited : Audited accounts d) (k : Nat) : Audited (accounts.modify k (.drop 0)) d := by
  have same : accounts.modify k (.drop 0) = accounts := List.modify_id k accounts
  rw [same]
  exact audited

/-- A marshaller that grew by what was added. -/
theorem grown (audited : Audited accounts d) {k size : Nat} {m room : SpiceMarshaller}
    {next : SpiceMarshallerData} {items : List MarshallerItem} (found : d.marshallers[k]? = some m)
    (chain : next.marshallers = d.marshallers) (total : next.totalSize = d.totalSize)
    (roomTotal : room.totalSize = m.totalSize)
    (held : (items.map (fun item => item.len)).sum = m.held + size) :
    Audited (accounts.modify k (.give size)) (Marshaller.grown next k room items size) where
  chain := by
    show List.Forall₂ Balanced _ (next.marshallers.set k _)
    rw [chain]
    refine balanced_modify audited.chain found _ (fun account balanced => ⟨?_, ?_⟩)
    · have before := balanced.held
      show (items.map (fun item => item.len)).sum + account.dropped = account.given + size
      omega
    · show sizeAdd room.totalSize size = (account.given + size) % 2 ^ 64
      exact sizeAdd_mod size (roomTotal.trans balanced.total)
  total := by
    have inside : k < accounts.length := by
      rw [audited.length_eq]
      exact (List.getElem?_eq_some_iff.mp found).1
    show sizeAdd next.totalSize size = _
    rw [sum_given_modify size inside]
    exact sizeAdd_mod size (total.trans audited.total)

end Audited

section Operations

variable {malloc : Nat -> Nat} {accounts : List Account} {d next : SpiceMarshallerData}

theorem addItem_frame {m room : SpiceMarshaller} (added : spiceMarshallerAddItem malloc d m = some (next, room)) :
    next.marshallers = d.marshallers ∧ next.totalSize = d.totalSize ∧ room.items = m.items ∧
      room.totalSize = m.totalSize := by
  unfold spiceMarshallerAddItem at added
  split at added
  · split at added
    · cases added
      exact ⟨rfl, rfl, rfl, rfl⟩
    · cases added
  · cases added
    exact ⟨rfl, rfl, rfl, rfl⟩

theorem sum_len_append (m : SpiceMarshaller) (item : MarshallerItem) :
    ((m.items ++ [item]).map (fun item => item.len)).sum = m.held + item.len := by
  simp [SpiceMarshaller.held]

theorem sum_len_replace {m : SpiceMarshaller} {last : MarshallerItem}
    (found : m.items.getLast? = some last) (item : MarshallerItem) :
    ((m.items.dropLast ++ [item]).map (fun item => item.len)).sum + last.len = m.held + item.len := by
  have parts := List.dropLast_append_getLast? last found
  have whole : m.held = ((m.items.dropLast ++ [last]).map (fun item => item.len)).sum := by
    rw [parts]
    rfl
  rw [whole]
  simp only [List.map_append, List.sum_append, List.map_cons, List.map_nil, List.sum_cons, List.sum_nil]
  omega

/-- Space is reserved, and counted. -/
theorem reserveSpace_audited (audited : Audited accounts d) {k size : Nat} {ptr : Option Nat}
    (reserved : spiceMarshallerReserveSpace malloc d k size = some (next, ptr)) :
    Audited (accounts.modify k (.give size)) next := by
  unfold spiceMarshallerReserveSpace at reserved
  split at reserved
  · next empty =>
      cases reserved
      rw [empty]
      exact audited.give_zero k
  · rcases Option.bind_eq_some_iff.mp reserved with ⟨m, found, rest⟩
    split at rest
    · rcases Option.bind_eq_some_iff.mp rest with ⟨item, last, done⟩
      cases done
      refine audited.grown found rfl rfl rfl ?_
      have sums := sum_len_replace last { item with len := item.len + size }
      simp only at sums
      omega
    · rcases Option.bind_eq_some_iff.mp rest with ⟨⟨middle, room⟩, added, placed⟩
      rcases addItem_frame added with ⟨chain, total, items, roomTotal⟩
      have held : forall item : MarshallerItem, item.len = size ->
          ((room.items ++ [item]).map (fun item => item.len)).sum = m.held + size := by
        intro item len
        rw [items, sum_len_append, len]
      simp only at placed
      split at placed
      · rcases Option.bind_eq_some_iff.mp placed with ⟨buffer, _, done⟩
        cases done
        exact audited.grown found chain total roomTotal (held _ rfl)
      · split at placed
        · cases placed
          exact audited.grown found chain total roomTotal (held _ rfl)
        · rcases Option.bind_eq_some_iff.mp placed with ⟨data, _, done⟩
          cases done
          refine audited.grown found ?_ ?_ roomTotal (held _ rfl)
          · split <;> exact chain
          · split <;> exact total

/-- Space is given back. -/
theorem unreserveSpace_audited (audited : Audited accounts d) {k size : Nat}
    (unreserved : spiceMarshallerUnreserveSpace d k size = some next) :
    Audited (accounts.modify k (.drop size)) next := by
  unfold spiceMarshallerUnreserveSpace at unreserved
  split at unreserved
  · next empty =>
      cases unreserved
      rw [empty]
      exact audited.drop_zero k
  · rcases Option.bind_eq_some_iff.mp unreserved with ⟨m, found, rest⟩
    rcases Option.bind_eq_some_iff.mp rest with ⟨item, last, checked⟩
    split at checked
    · next fits =>
        cases checked
        refine ⟨balanced_modify audited.chain found _ (fun account balanced => ⟨?_, ?_⟩), ?_⟩
        · have sums := sum_len_replace last { item with len := item.len - size }
          have before := balanced.held
          simp only at sums
          simp only [SpiceMarshaller.held, Account.drop] at before sums ⊢
          omega
        · exact balanced.total
        · rw [sum_given_drop]
          exact audited.total
    · cases checked

/-- A reference is added, and counted. -/
theorem addRefFull_audited (audited : Audited accounts d) {k data size : Nat} {freeData : Option (FreeFunc × Nat)}
    (added : spiceMarshallerAddRefFull malloc d k data size freeData = some next) :
    Audited (accounts.modify k (.give (chunkBytes [(data, size)]))) next := by
  unfold spiceMarshallerAddRefFull at added
  split at added
  · next empty =>
      cases added
      have nothing : chunkBytes [(data, size)] = 0 := by
        rcases empty with null | zero
        · simp [chunkBytes, null]
        · simp [chunkBytes, zero]
      rw [nothing]
      exact audited.give_zero k
  · next real =>
      rcases Option.bind_eq_some_iff.mp added with ⟨m, found, rest⟩
      rcases Option.bind_eq_some_iff.mp rest with ⟨⟨middle, room⟩, roomy, done⟩
      rcases addItem_frame roomy with ⟨chain, total, items, roomTotal⟩
      cases done
      have bytes : chunkBytes [(data, size)] = size := by
        simp only [chunkBytes, List.map_cons, List.map_nil, List.sum_cons, List.sum_nil]
        rw [if_neg (fun null => real (Or.inl null)), Nat.add_zero]
      rw [bytes]
      refine audited.grown found chain total roomTotal ?_
      rw [items, sum_len_append]

theorem give_give (first second k : Nat) (accounts : List Account) :
    (accounts.modify k (.give first)).modify k (.give second) = accounts.modify k (.give (first + second)) := by
  rw [List.modify_modify_eq]
  congr 1
  funext account
  simp [Account.give, Nat.add_assoc]

theorem addRefChunks_audited {k : Nat} (chunks : List (Nat × Nat)) (audited : Audited accounts d)
    (added : spiceMarshallerAddRefChunks malloc d k chunks = some next) :
    Audited (accounts.modify k (.give (chunkBytes chunks))) next := by
  induction chunks generalizing accounts d with
  | nil =>
      cases added
      exact audited.give_zero k
  | cons chunk rest ih =>
      rcases Option.bind_eq_some_iff.mp added with ⟨middle, first, others⟩
      have step := ih (addRefFull_audited audited first) others
      rw [give_give] at step
      have split : chunkBytes [(chunk.1, chunk.2)] + chunkBytes rest = chunkBytes (chunk :: rest) := by
        simp [chunkBytes]
      rwa [split] at step

theorem stored_audited (audited : Audited accounts d) (ptr : Option Nat) (bytes : List UInt8) :
    Audited accounts (stored d ptr bytes) := by
  cases ptr with
  | none => exact audited
  | some addr => exact audited.congr rfl rfl

theorem add_audited (audited : Audited accounts d) {k : Nat} {data : List UInt8}
    (added : spiceMarshallerAdd malloc d k data = some next) :
    Audited (accounts.modify k (.give data.length)) next := by
  rcases Option.bind_eq_some_iff.mp added with ⟨⟨middle, ptr⟩, reserved, done⟩
  cases done
  exact stored_audited (reserveSpace_audited audited reserved) ptr data

theorem addInt_audited (audited : Audited accounts d) {n k value : Nat}
    (added : addInt malloc n d k value = some next) : Audited (accounts.modify k (.give n)) next := by
  have step := add_audited audited added
  rwa [littleEndian_length] at step

theorem getSubmarshaller_audited (audited : Audited accounts d) (pointerRef : Option MarshallerRef) :
    Audited (accounts ++ [⟨0, 0⟩]) (spiceMarshallerGetSubmarshaller malloc d pointerRef) where
  chain := List.rel_append audited.chain (List.Forall₂.cons ⟨rfl, rfl⟩ List.Forall₂.nil)
  total := by
    rw [List.map_append, List.sum_append]
    exact audited.total

theorem getPtrSubmarshaller_audited (audited : Audited accounts d) {k : Nat} {is64bit : Bool}
    (got : spiceMarshallerGetPtrSubmarshaller malloc d k is64bit = some next) :
    Audited (accounts.modify k (.give (if is64bit then 8 else 4)) ++ [⟨0, 0⟩]) next := by
  rcases Option.bind_eq_some_iff.mp got with ⟨⟨middle, ptr⟩, reserved, rest⟩
  rcases Option.bind_eq_some_iff.mp rest with ⟨m, _, rest⟩
  rcases Option.bind_eq_some_iff.mp rest with ⟨item, _, done⟩
  cases done
  exact getSubmarshaller_audited (stored_audited (reserveSpace_audited audited reserved) ptr _) _

/-- A flush frees items and nothing else. -/
theorem flushFrom_frame (chain : List SpiceMarshaller) (k : Nat) (flushed : flushFrom d k chain = some next) :
    next.marshallers = d.marshallers ∧ next.totalSize = d.totalSize := by
  induction chain generalizing d k with
  | nil =>
      cases flushed
      exact ⟨rfl, rfl⟩
  | cons m rest ih =>
      unfold flushFrom at flushed
      split at flushed
      · exact ih (k + 1) flushed
      · split at flushed
        · rcases Option.bind_eq_some_iff.mp flushed with ⟨ptrPos, _, others⟩
          have rest := ih (k + 1) others
          exact rest
        · exact ih (k + 1) flushed

theorem reset_audited (reset : spiceMarshallerReset d = some next) : Audited [⟨0, 0⟩] next := by
  rcases Option.bind_eq_some_iff.mp reset with ⟨root, _, done⟩
  cases done
  exact ⟨List.Forall₂.cons ⟨rfl, rfl⟩ List.Forall₂.nil, rfl⟩

/-- Every operation agrees with its accounts. -/
theorem marshallerStep_audited (audited : Audited accounts d) (op : MarshallerOp)
    (stepped : marshallerStep malloc d op = some next) : Audited (accountStep accounts op) next := by
  cases op with
  | reserveSpace k size =>
      rcases Option.map_eq_some_iff.mp stepped with ⟨⟨middle, ptr⟩, reserved, same⟩
      cases same
      exact reserveSpace_audited audited reserved
  | unreserveSpace k size => exact unreserveSpace_audited audited stepped
  | add k data => exact add_audited audited stepped
  | addRef k data size => exact addRefFull_audited audited stepped
  | addRefFull k data size freeData => exact addRefFull_audited audited stepped
  | addRefChunks k chunks => exact addRefChunks_audited chunks audited stepped
  | addUint64 k value => exact addInt_audited audited stepped
  | addInt64 k value => exact addInt_audited audited stepped
  | addUint32 k value => exact addInt_audited audited stepped
  | addInt32 k value => exact addInt_audited audited stepped
  | addUint16 k value => exact addInt_audited audited stepped
  | addInt16 k value => exact addInt_audited audited stepped
  | addUint8 k value => exact addInt_audited audited stepped
  | addInt8 k value => exact addInt_audited audited stepped
  | getSubmarshaller k =>
      simp only [marshallerStep] at stepped
      split at stepped
      · cases stepped
        exact getSubmarshaller_audited audited none
      · cases stepped
  | getPtrSubmarshaller k is64bit => exact getPtrSubmarshaller_audited audited stepped
  | write addr bytes =>
      cases stepped
      exact audited.congr rfl rfl
  | setBase base =>
      cases stepped
      exact audited.congr rfl rfl
  | flush =>
      rcases flushFrom_frame d.marshallers 0 stepped with ⟨chain, total⟩
      exact audited.congr chain total
  | reset => exact reset_audited stepped

theorem run_audited (mem : Nat -> UInt8) (ops : List MarshallerOp)
    (ran : run (marshallerStep malloc) (spiceMarshallerNew malloc mem) ops = some d) : Audited (accountsOf ops) d := by
  have start : Audited (accountsOf []) (spiceMarshallerNew malloc mem) :=
    ⟨List.Forall₂.cons ⟨rfl, rfl⟩ List.Forall₂.nil, rfl⟩
  have keep : forall past state op next, Audited (accountsOf past) state ->
      marshallerStep malloc state op = some next -> Audited (accountsOf (past ++ [op])) next := by
    intro past state op next audited stepped
    have step := marshallerStep_audited audited op stepped
    rwa [accountsOf, List.foldl_append]
  exact run_invariant keep ops [] _ d start ran

end Operations

end Marshaller
end Spice
