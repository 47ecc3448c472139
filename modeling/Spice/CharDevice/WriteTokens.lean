import Mathlib.Algebra.BigOperators.Group.List.Basic
import Mathlib.Data.List.Nodup
import Mathlib.Tactic.Common
import Spice.CharDevice.Model

namespace Spice
namespace CharDevice

open Lib

variable {Msg : Type}

/-!
# Write tokens

A client pays a token for every write buffer it obtains and gets its price
back when the buffer is written or released.  The server pays from a fund of
its own.  The ledger counts the buffers that were obtained and are not written
or released, wherever they are: with a caller, in the write queue, or being
written.
-/

/-- The buffers that were obtained and are neither written nor released. -/
def outstanding (e : Exec Msg) : List SpiceCharDeviceWriteBuffer :=
  e.held ++ (e.dev.writeQueue ++ e.dev.curWriteBuf.toList)

theorem outstanding_eq {e next : Exec Msg} (held : next.held = e.held)
    (queue : next.dev.writeQueue = e.dev.writeQueue) (cur : next.dev.curWriteBuf = e.dev.curWriteBuf) :
    outstanding next = outstanding e := by
  rw [outstanding, held, queue, cur]
  rfl

/-- What a client has paid for a buffer. -/
def priceFor (client : Nat) (buf : SpiceCharDeviceWriteBuffer) : Nat :=
  if ownedBy client buf then buf.tokenPrice else 0

/-- What a client has paid for some buffers. -/
def prices (client : Nat) (bufs : List SpiceCharDeviceWriteBuffer) : Nat :=
  (bufs.map (priceFor client)).sum

def selfBuffers (bufs : List SpiceCharDeviceWriteBuffer) : Nat :=
  (bufs.map (fun buf => if buf.origin = .server then 1 else 0)).sum

/-- The tokens configured when a client was attached. -/
def initialTokens (key : Nat) : List (Obs Msg) -> Nat
  | [] => 0
  | .attached other _ _ tokens _ :: rest => if other = key then tokens else initialTokens key rest
  | _ :: rest => initialTokens key rest

/-- The tokens of every flow-controlled client and of the server add up. -/
def TokensConserved (selfTokens : Nat) (e : Exec Msg) : Prop :=
  (forall devClient, devClient ∈ e.dev.clients -> devClient.doFlowControl = true ->
    devClient.numClientTokens + devClient.numClientTokensFree +
      prices devClient.client (outstanding e) = initialTokens devClient.key e.trace) ∧
  e.dev.numSelfTokens + selfBuffers (outstanding e) = selfTokens

/-- How the interface is used: a client is attached once at a time, and while
it is detached the callers hold none of its buffers. -/
def WriteContract (e : Exec Msg) : Event Msg -> Prop
  | .call (.clientAdd client _ _ _ _ _) =>
      client ∉ e.dev.clients.map (fun devClient => devClient.client)
  | .tick => forall key rest, e.stack = .queueFree key .remove :: rest ->
      forall devClient, e.dev.clientAt key = some devClient ->
        forall buf, buf ∈ e.held -> ownedBy devClient.client buf = false
  | _ => True

/-- The fields of a client that the ledger looks at. -/
def tokenView (devClient : SpiceCharDeviceClientState Msg) : Nat × Nat × Bool × Nat × Nat :=
  (devClient.key, devClient.client, devClient.doFlowControl, devClient.numClientTokens,
    devClient.numClientTokensFree)

/-- The ledger, for a given list of outstanding buffers. -/
structure Ledger (selfTokens : Nat) (bufs : List SpiceCharDeviceWriteBuffer) (e : Exec Msg) : Prop where
  paid : forall devClient, devClient ∈ e.dev.clients -> devClient.doFlowControl = true ->
    devClient.numClientTokens + devClient.numClientTokensFree + prices devClient.client bufs =
      initialTokens devClient.key e.trace ∧ initialTokens devClient.key e.trace < 2 ^ 32
  self : e.dev.numSelfTokens + selfBuffers bufs = selfTokens
  selfSmall : selfTokens < 2 ^ 32
  owned : forall buf, buf ∈ bufs -> buf.origin = .client ->
    Exists fun devClient => devClient ∈ e.dev.clients ∧ buf.client = some devClient.client
  clients : (e.dev.clients.map (fun devClient => devClient.client)).Nodup
  keys : (e.dev.clients.map (fun devClient => devClient.key)).Nodup
  fresh : forall devClient, devClient ∈ e.dev.clients -> devClient.key < e.fresh

/-- A step that does not concern the ledger. -/
structure Unpaid (e next : Exec Msg) : Prop where
  clients : next.dev.clients.map tokenView = e.dev.clients.map tokenView
  self : next.dev.numSelfTokens = e.dev.numSelfTokens
  fresh : e.fresh ≤ next.fresh
  initial : forall key, initialTokens key next.trace = initialTokens key e.trace

section Lists

theorem prices_perm (client : Nat) {bufs other : List SpiceCharDeviceWriteBuffer}
    (perm : bufs.Perm other) : prices client bufs = prices client other :=
  (perm.map _).sum_eq

theorem selfBuffers_perm {bufs other : List SpiceCharDeviceWriteBuffer} (perm : bufs.Perm other) :
    selfBuffers bufs = selfBuffers other :=
  (perm.map _).sum_eq

@[simp] theorem prices_cons (client : Nat) (buf : SpiceCharDeviceWriteBuffer)
    (rest : List SpiceCharDeviceWriteBuffer) :
    prices client (buf :: rest) = priceFor client buf + prices client rest := by
  simp [prices]

@[simp] theorem selfBuffers_cons (buf : SpiceCharDeviceWriteBuffer)
    (rest : List SpiceCharDeviceWriteBuffer) :
    selfBuffers (buf :: rest) = (if buf.origin = .server then 1 else 0) + selfBuffers rest := by
  simp [selfBuffers]

theorem perm_eraseP {A : Type} {p : A -> Bool} {xs : List A} {x : A} (found : xs.find? p = some x) :
    xs.Perm (x :: xs.eraseP p) := by
  induction xs with
  | nil => cases found
  | cons head tail ih =>
      cases hit : p head with
      | true =>
          rw [List.find?_cons_of_pos hit] at found
          rw [List.eraseP_cons_of_pos hit, Option.some.inj found]
      | false =>
          have miss : ¬ p head = true := by rw [hit]; exact Bool.false_ne_true
          rw [List.find?_cons_of_neg miss] at found
          rw [List.eraseP_cons_of_neg miss]
          exact ((ih found).cons head).trans (List.Perm.swap x head _)

end Lists

namespace Unpaid

theorem setClient (dev : SpiceCharDeviceState Msg) (key : Nat)
    (change : SpiceCharDeviceClientState Msg -> SpiceCharDeviceClientState Msg)
    (keeps : forall devClient, tokenView (change devClient) = tokenView devClient) :
    (dev.setClient key change).clients.map tokenView = dev.clients.map tokenView := by
  simp only [SpiceCharDeviceState.setClient, List.map_map]
  apply List.map_congr_left
  intro devClient _
  simp only [Function.comp]
  split
  · exact keeps devClient
  · rfl

theorem readFromDevice (e : Exec Msg) : Unpaid e e.readFromDevice := by
  unfold Exec.readFromDevice
  split
  · exact ⟨rfl, rfl, Nat.le_refl _, fun _ => rfl⟩
  · split <;> exact ⟨rfl, rfl, Nat.le_refl _, fun _ => rfl⟩

theorem writeToDevice (e : Exec Msg) : Unpaid e e.writeToDevice := by
  unfold Exec.writeToDevice
  split
  · exact ⟨rfl, rfl, Nat.le_refl _, fun _ => rfl⟩
  · split <;> exact ⟨rfl, rfl, Nat.le_refl _, fun _ => rfl⟩

theorem writeEnd (e : Exec Msg) (total : Nat) : Unpaid e (e.writeEnd total) := by
  unfold Exec.writeEnd
  split
  · split <;> exact ⟨rfl, rfl, Nat.le_refl _, fun _ => rfl⟩
  · exact ⟨rfl, rfl, Nat.le_refl _, fun _ => rfl⟩

theorem readEnd (e : Exec Msg) (didRead : Bool) : Unpaid e (e.readEnd didRead) := by
  unfold Exec.readEnd
  split <;> exact ⟨rfl, rfl, Nat.le_refl _, fun _ => rfl⟩

end Unpaid

namespace Ledger

variable {selfTokens : Nat} {buf : SpiceCharDeviceWriteBuffer} {bufs : List SpiceCharDeviceWriteBuffer}
variable {e next : Exec Msg}

theorem perm (ledger : Ledger selfTokens bufs e) {other : List SpiceCharDeviceWriteBuffer}
    (same : bufs.Perm other) : Ledger selfTokens other e where
  paid := by
    intro devClient member flow
    rw [← prices_perm _ same]
    exact ledger.paid devClient member flow
  self := by
    rw [← selfBuffers_perm same]
    exact ledger.self
  selfSmall := ledger.selfSmall
  owned := fun buf member => ledger.owned buf (same.mem_iff.mpr member)
  clients := ledger.clients
  keys := ledger.keys
  fresh := ledger.fresh

/-- The ledger only looks at the token view. -/
theorem unpaid (ledger : Ledger selfTokens bufs e) (same : Unpaid e next) : Ledger selfTokens bufs next := by
  have views := same.clients
  have back : forall devClient, devClient ∈ next.dev.clients ->
      Exists fun old => old ∈ e.dev.clients ∧ tokenView old = tokenView devClient := by
    intro devClient member
    have mapped : tokenView devClient ∈ e.dev.clients.map tokenView := by
      rw [← views]
      exact List.mem_map_of_mem member
    exact List.mem_map.mp mapped
  have forth : forall old, old ∈ e.dev.clients ->
      Exists fun devClient => devClient ∈ next.dev.clients ∧ tokenView devClient = tokenView old := by
    intro old member
    have mapped : tokenView old ∈ next.dev.clients.map tokenView := by
      rw [views]
      exact List.mem_map_of_mem member
    exact List.mem_map.mp mapped
  have keyViews : next.dev.clients.map (fun devClient => devClient.key) =
      e.dev.clients.map (fun devClient => devClient.key) := by
    have projected := congrArg (List.map (fun view : Nat × Nat × Bool × Nat × Nat => view.1)) views
    rw [List.map_map, List.map_map] at projected
    exact projected
  have clientViews : next.dev.clients.map (fun devClient => devClient.client) =
      e.dev.clients.map (fun devClient => devClient.client) := by
    have projected := congrArg (List.map (fun view : Nat × Nat × Bool × Nat × Nat => view.2.1)) views
    rw [List.map_map, List.map_map] at projected
    exact projected
  refine ⟨?_, ?_, ledger.selfSmall, ?_, ?_, ?_, ?_⟩
  · intro devClient member flow
    rcases back devClient member with ⟨old, oldMember, view⟩
    simp only [tokenView, Prod.mk.injEq] at view
    rcases view with ⟨key, client, oldFlow, num, free⟩
    rw [same.initial, ← key, ← client, ← num, ← free]
    exact ledger.paid old oldMember (oldFlow.trans flow)
  · rw [same.self]
    exact ledger.self
  · intro buf member origin
    rcases ledger.owned buf member origin with ⟨old, oldMember, owner⟩
    rcases forth old oldMember with ⟨devClient, newMember, view⟩
    refine ⟨devClient, newMember, owner.trans ?_⟩
    simp only [tokenView, Prod.mk.injEq] at view
    rw [view.2.1]
  · rw [clientViews]
    exact ledger.clients
  · rw [keyViews]
    exact ledger.keys
  · intro devClient member
    rcases back devClient member with ⟨old, oldMember, view⟩
    simp only [tokenView, Prod.mk.injEq] at view
    rw [← view.1]
    exact Nat.lt_of_lt_of_le (ledger.fresh old oldMember) same.fresh

variable {one two : SpiceCharDeviceClientState Msg}

theorem eq_of_key (ledger : Ledger selfTokens bufs e)
    (first : one ∈ e.dev.clients) (second : two ∈ e.dev.clients) (same : one.key = two.key) : one = two :=
  List.inj_on_of_nodup_map ledger.keys first second same

theorem eq_of_client (ledger : Ledger selfTokens bufs e)
    (first : one ∈ e.dev.clients) (second : two ∈ e.dev.clients) (same : one.client = two.client) : one = two :=
  List.inj_on_of_nodup_map ledger.clients first second same

variable {devClient : SpiceCharDeviceClientState Msg}

/-- One client pays or is paid, and the outstanding buffers change with it. -/
theorem payment (ledger : Ledger selfTokens bufs e) (member : devClient ∈ e.dev.clients)
    (change : SpiceCharDeviceClientState Msg -> SpiceCharDeviceClientState Msg)
    (keepsKey : forall c, (change c).key = c.key) (keepsClient : forall c, (change c).client = c.client)
    (keepsFlow : forall c, (change c).doFlowControl = c.doFlowControl) {other : List SpiceCharDeviceWriteBuffer}
    (clients : next.dev.clients = (e.dev.setClient devClient.key change).clients)
    (self : next.dev.numSelfTokens + selfBuffers other = e.dev.numSelfTokens + selfBuffers bufs)
    (fresh : e.fresh ≤ next.fresh) (trace : next.trace = e.trace) (mine : devClient.doFlowControl = true ->
      (change devClient).numClientTokens + (change devClient).numClientTokensFree + prices devClient.client other =
        devClient.numClientTokens + devClient.numClientTokensFree + prices devClient.client bufs)
    (theirs : forall c, c ∈ e.dev.clients -> c ≠ devClient -> prices c.client other = prices c.client bufs)
    (owned : forall buf, buf ∈ other -> buf.origin = .client -> Exists fun c => c ∈ e.dev.clients ∧
      buf.client = some c.client) :
    Ledger selfTokens other next := by
  have form : forall c, c ∈ next.dev.clients -> Exists fun old => old ∈ e.dev.clients ∧
      c = if old.key = devClient.key then change old else old := by
    intro c found
    rw [clients] at found
    rcases List.mem_map.mp found with ⟨old, oldMember, same⟩
    exact ⟨old, oldMember, same.symm⟩
  have project : forall {A : Type} (field : SpiceCharDeviceClientState Msg -> A),
      (forall c, field (change c) = field c) ->
        next.dev.clients.map field = e.dev.clients.map field := by
    intro A field keeps
    rw [clients, SpiceCharDeviceState.setClient, List.map_map]
    apply List.map_congr_left
    intro c _
    simp only [Function.comp]
    split
    · exact keeps c
    · rfl
  refine ⟨?_, self.trans ledger.self, ledger.selfSmall, ?_, ?_, ?_, ?_⟩
  · intro c found flow
    rcases form c found with ⟨old, oldMember, same⟩
    rw [trace]
    by_cases here : old.key = devClient.key
    · have equal := ledger.eq_of_key oldMember member here
      subst equal
      rw [if_pos rfl] at same
      subst same
      rw [keepsKey, keepsClient]
      rw [keepsFlow] at flow
      rw [mine flow]
      exact ledger.paid old oldMember flow
    · rw [if_neg here] at same
      subst same
      rw [theirs c oldMember (fun equal => here (by rw [equal]))]
      exact ledger.paid c oldMember flow
  · intro buf found origin
    rcases owned buf found origin with ⟨c, cMember, owner⟩
    have mapped : c.client ∈ next.dev.clients.map (fun c => c.client) := by
      rw [project (fun c => c.client) keepsClient]
      exact List.mem_map_of_mem cMember
    rcases List.mem_map.mp mapped with ⟨newer, newMember, same⟩
    exact ⟨newer, newMember, owner.trans (congrArg some same.symm)⟩
  · rw [project (fun c => c.client) keepsClient]
    exact ledger.clients
  · rw [project (fun c => c.key) keepsKey]
    exact ledger.keys
  · intro c found
    have mapped : c.key ∈ e.dev.clients.map (fun c => c.key) := by
      rw [← project (fun c => c.key) keepsKey]
      exact List.mem_map_of_mem found
    rcases List.mem_map.mp mapped with ⟨old, oldMember, same⟩
    rw [← same]
    exact Nat.lt_of_lt_of_le (ledger.fresh old oldMember) fresh

/-- A buffer without a price is dropped from the ledger. -/
theorem discard (ledger : Ledger selfTokens (buf :: bufs) e)
    (free : forall c, c ∈ e.dev.clients -> c.doFlowControl = true -> priceFor c.client buf = 0)
    (notServer : buf.origin ≠ .server) : Ledger selfTokens bufs e where
  paid := by
    intro c member flow
    have before := ledger.paid c member flow
    rw [prices_cons, free c member flow, Nat.zero_add] at before
    exact before
  self := by
    have before := ledger.self
    rw [selfBuffers_cons, if_neg notServer, Nat.zero_add] at before
    exact before
  selfSmall := ledger.selfSmall
  owned := fun other member => ledger.owned other (List.mem_cons_of_mem _ member)
  clients := ledger.clients
  keys := ledger.keys
  fresh := ledger.fresh

variable {buf : SpiceCharDeviceWriteBuffer}

theorem find_owner (ledger : Ledger selfTokens bufs e) (member : buf ∈ bufs) (origin : buf.origin = .client) :
    Exists fun devClient => devClient ∈ e.dev.clients ∧ buf.client = some devClient.client ∧
      e.dev.clientFind devClient.client = some devClient := by
  rcases ledger.owned buf member origin with ⟨devClient, found, owner⟩
  cases hit : e.dev.clientFind devClient.client with
  | none =>
      have missed := List.find?_eq_none.mp hit devClient found
      simp at missed
  | some other =>
      have otherMember := List.mem_of_find?_eq_some hit
      have sameClient : other.client = devClient.client := by simpa using List.find?_some hit
      have same := ledger.eq_of_client otherMember found sameClient
      subst same
      exact ⟨other, found, owner, hit⟩

theorem ownedBy_iff {client : Nat} : ownedBy client buf = true <-> buf.origin = .client ∧ buf.client = some client := by
  simp [ownedBy]

theorem priceFor_eq_zero {client : Nat} (origin : buf.origin ≠ .client) : priceFor client buf = 0 := by
  unfold priceFor
  rw [if_neg]
  intro owned
  exact origin (ownedBy_iff.mp owned).1

theorem priceFor_other (owner : buf.client = some one.client) (different : two.client ≠ one.client) :
    priceFor two.client buf = 0 := by
  unfold priceFor
  rw [if_neg]
  intro owned
  have other := (ownedBy_iff.mp owned).2
  rw [owner] at other
  exact different (Option.some.inj other).symm

theorem priceFor_owner (origin : buf.origin = .client) (owner : buf.client = some devClient.client) :
    priceFor devClient.client buf = buf.tokenPrice := by
  unfold priceFor
  rw [if_pos (ownedBy_iff.mpr ⟨origin, owner⟩)]

theorem poolAdd (e : Exec Msg) (buf : SpiceCharDeviceWriteBuffer) :
    Unpaid e { e with dev := e.dev.writeBufferPoolAdd buf } := by
  unfold SpiceCharDeviceState.writeBufferPoolAdd
  split <;> exact ⟨rfl, rfl, Nat.le_refl _, fun _ => rfl⟩

/-- Releasing a buffer gives its price back. -/
theorem release (ledger : Ledger selfTokens (buf :: bufs) e) : Ledger selfTokens bufs (e.writeBufferRelease buf) := by
  have pooledLedger := ledger.unpaid (poolAdd e buf)
  unfold Exec.writeBufferRelease
  generalize pooledEq : ({ e with dev := e.dev.writeBufferPoolAdd buf } : Exec Msg) = pooled at pooledLedger
  simp only
  cases origin : buf.origin with
  | client =>
      rcases pooledLedger.find_owner List.mem_cons_self origin with ⟨devClient, member, owner, found⟩
      have others : forall c, c ∈ pooled.dev.clients -> c ≠ devClient -> priceFor c.client buf = 0 := by
        intro c cMember different
        exact priceFor_other owner (fun same => different (pooledLedger.eq_of_client cMember member same))
      have price := priceFor_owner origin owner
      simp only [owner, Option.bind_some, found]
      by_cases flow : devClient.doFlowControl = true
      · -- the price is at most what the client started with, so no counter wraps
        have balance := pooledLedger.paid devClient member flow
        rw [prices_cons, price] at balance
        have theirs : forall c, c ∈ pooled.dev.clients -> c ≠ devClient ->
            prices c.client bufs = prices c.client (buf :: bufs) := by
          intro c cMember different
          rw [prices_cons, others c cMember different, Nat.zero_add]
        have owned : forall other, other ∈ bufs -> other.origin = .client ->
            Exists fun c => c ∈ pooled.dev.clients ∧ other.client = some c.client :=
          fun other otherMember => pooledLedger.owned other (List.mem_cons_of_mem _ otherMember)
        have self : pooled.dev.numSelfTokens + selfBuffers bufs =
            pooled.dev.numSelfTokens + selfBuffers (buf :: bufs) := by
          rw [selfBuffers_cons, origin]
          simp
        simp only [SpiceCharDeviceState.clientTokensAdd, flow, if_true]
        have sum : add64 devClient.numClientTokensFree buf.tokenPrice =
            devClient.numClientTokensFree + buf.tokenPrice := add64_of_lt (by omega)
        rw [sum]
        by_cases full : pooled.dev.clientTokensInterval ≤ devClient.numClientTokensFree + buf.tokenPrice
        · simp only [full, if_true]
          refine pooledLedger.payment member _ ?_ ?_ ?_ rfl self (Nat.le_refl _) rfl (fun _ => ?_) theirs owned
          · intro c; rfl
          · intro c; rfl
          · intro c; rfl
          · show add64 devClient.numClientTokens (devClient.numClientTokensFree + buf.tokenPrice) + 0 + _ = _
            rw [prices_cons, price, add64_of_lt (by omega)]
            omega
        · simp only [full, if_false]
          refine pooledLedger.payment member _ ?_ ?_ ?_ rfl self (Nat.le_refl _) rfl (fun _ => ?_) theirs owned
          · intro c; rfl
          · intro c; rfl
          · intro c; rfl
          · show devClient.numClientTokens + (devClient.numClientTokensFree + buf.tokenPrice) + _ = _
            rw [prices_cons, price]
            omega
      · simp only [SpiceCharDeviceState.clientTokensAdd, flow]
        refine pooledLedger.discard (fun c cMember cFlow => others c cMember ?_) (by rw [origin]; decide)
        intro same
        rw [same] at cFlow
        exact flow cFlow
  | server =>
      have before := pooledLedger.self
      rw [selfBuffers_cons, if_pos origin] at before
      have small := pooledLedger.selfSmall
      refine ⟨?_, ?_, small, fun other member => pooledLedger.owned other (List.mem_cons_of_mem _ member),
        pooledLedger.clients, pooledLedger.keys, pooledLedger.fresh⟩
      · intro c member flow
        have paid := pooledLedger.paid c member flow
        rw [prices_cons, priceFor_eq_zero (by rw [origin]; decide), Nat.zero_add] at paid
        exact paid
      · show add64 pooled.dev.numSelfTokens 1 + _ = _
        rw [add64_of_lt (by omega)]
        omega
  | none =>
      refine pooledLedger.discard (fun c _ _ => ?_) (by rw [origin]; decide)
      exact priceFor_eq_zero (by rw [origin]; decide)
  | serverNoToken =>
      refine pooledLedger.discard (fun c _ _ => ?_) (by rw [origin]; decide)
      exact priceFor_eq_zero (by rw [origin]; decide)

/-- A buffer without a price enters the ledger. -/
theorem accept (ledger : Ledger selfTokens bufs e)
    (free : forall c, c ∈ e.dev.clients -> c.doFlowControl = true -> priceFor c.client buf = 0)
    (notServer : buf.origin ≠ .server)
    (owned : buf.origin = .client -> Exists fun devClient => devClient ∈ e.dev.clients ∧
      buf.client = some devClient.client) :
    Ledger selfTokens (buf :: bufs) e where
  paid := by
    intro c member flow
    rw [prices_cons, free c member flow, Nat.zero_add]
    exact ledger.paid c member flow
  self := by
    rw [selfBuffers_cons, if_neg notServer, Nat.zero_add]
    exact ledger.self
  selfSmall := ledger.selfSmall
  owned := by
    intro other member origin
    rcases List.mem_cons.mp member with same | old
    · rw [same] at origin ⊢
      exact owned origin
    · exact ledger.owned other old origin
  clients := ledger.clients
  keys := ledger.keys
  fresh := ledger.fresh

theorem takeBuffer (e : Exec Msg) (size : Nat) :
    Unpaid e (e.takeBuffer size).1 ∧ outstanding (e.takeBuffer size).1 = outstanding e := by
  unfold Exec.takeBuffer
  split
  · exact ⟨⟨rfl, rfl, Nat.le_refl _, fun _ => rfl⟩, rfl⟩
  · exact ⟨⟨rfl, rfl, Nat.le_succ _, fun _ => rfl⟩, rfl⟩

/-- A client pays for its buffer with a token. -/
theorem getClient (ledger : Ledger selfTokens bufs e)
    {client : Nat} (found : e.dev.clientFind client = some devClient)
    (origin : buf.origin = .client) (owner : buf.client = some client) (price : buf.tokenPrice = 1)
    (flow : devClient.doFlowControl = true) (rich : devClient.numClientTokens ≠ 0) :
    Ledger selfTokens (buf :: bufs) { e with dev := e.dev.setClient devClient.key (fun c =>
      { c with numClientTokens := dec64 c.numClientTokens }) } := by
  have member := List.mem_of_find?_eq_some found
  have sameClient : devClient.client = client := by simpa using List.find?_some found
  rw [← sameClient] at owner
  have balance := ledger.paid devClient member flow
  refine ledger.payment member (fun c =>
      { c with numClientTokens := dec64 c.numClientTokens })
    ?_ ?_ ?_ rfl ?_ (Nat.le_refl _) rfl (fun _ => ?_) ?_ ?_
  · intro c; rfl
  · intro c; rfl
  · intro c; rfl
  · rw [selfBuffers_cons, if_neg (by rw [origin]; decide), Nat.zero_add]
    rfl
  · show dec64 devClient.numClientTokens + devClient.numClientTokensFree + _ = _
    rw [prices_cons, priceFor_owner origin owner, price, dec64_of_ne rich]
    omega
  · intro c cMember different
    rw [prices_cons, priceFor_other owner (fun same => different (ledger.eq_of_client cMember member same)),
      Nat.zero_add]
  · intro other otherMember otherOrigin
    rcases List.mem_cons.mp otherMember with same | old
    · rw [same]
      exact ⟨devClient, member, owner⟩
    · exact ledger.owned other old otherOrigin

/-- The server pays with one of its own. -/
theorem getServer (ledger : Ledger selfTokens bufs e) (buf : SpiceCharDeviceWriteBuffer)
    (origin : buf.origin = .server) (fund : Nat) (paid : fund + 1 = e.dev.numSelfTokens) :
    Ledger selfTokens (buf :: bufs) { e with dev := { e.dev with numSelfTokens := fund } } where
  paid := by
    intro c member flow
    rw [prices_cons, priceFor_eq_zero (by rw [origin]; decide), Nat.zero_add]
    exact ledger.paid c member flow
  self := by
    have before := ledger.self
    rw [selfBuffers_cons, if_pos origin]
    simp only
    omega
  selfSmall := ledger.selfSmall
  owned := by
    intro other member otherOrigin
    rcases List.mem_cons.mp member with same | old
    · rw [same, origin] at otherOrigin
      cases otherOrigin
    · exact ledger.owned other old otherOrigin
  clients := ledger.clients
  keys := ledger.keys
  fresh := ledger.fresh

/-- Whoever asks for a buffer. -/
theorem get (ledger : Ledger selfTokens (outstanding e) e) (client size : Nat) (origin : WriteBufferOrigin) :
    Ledger selfTokens (outstanding (e.writeBufferGet client size origin)) (e.writeBufferGet client size origin) := by
  have taken := takeBuffer e size
  have takenLedger := ledger.unpaid taken.1
  rw [← taken.2] at takenLedger
  unfold Exec.writeBufferGet
  by_cases poor : origin = .server ∧ e.dev.numSelfTokens = 0
  · rw [if_pos poor]
    exact ledger
  · rw [if_neg poor]
    have selfSame := taken.1.self
    generalize e.takeBuffer size = pair at takenLedger selfSame
    rcases pair with ⟨middle, buf⟩
    simp only at takenLedger selfSame ⊢
    by_cases used : buf.buf ≠ []
    · rw [if_pos used]
      exact takenLedger.unpaid ⟨rfl, rfl, Nat.le_refl _, fun _ => rfl⟩
    · rw [if_neg used]
      cases origin with
      | client =>
          cases found : middle.dev.clientFind client with
          | none => exact takenLedger.unpaid ⟨rfl, rfl, Nat.le_refl _, fun _ => rfl⟩
          | some devClient =>
              by_cases flow : devClient.doFlowControl = true
              · by_cases none : devClient.numClientTokens = 0
                · simp only [flow, none, if_true]
                  exact takenLedger.unpaid ⟨rfl, rfl, Nat.le_refl _, fun _ => rfl⟩
                · simp only [flow, none, if_true, if_false]
                  exact (takenLedger.getClient found rfl rfl rfl flow none).unpaid
                    ⟨rfl, rfl, Nat.le_refl _, fun _ => rfl⟩
              · simp only [flow]
                have member := List.mem_of_find?_eq_some found
                have sameClient : devClient.client = client := by simpa using List.find?_some found
                have owner : some client = some devClient.client := by rw [sameClient]
                refine (takenLedger.accept (fun c cMember cFlow => ?_) (by simp)
                  (fun _ => ⟨devClient, member, owner⟩)).unpaid ⟨rfl, rfl, Nat.le_refl _, fun _ => rfl⟩
                refine priceFor_other owner (fun same => flow ?_)
                rw [← takenLedger.eq_of_client cMember member same]
                exact cFlow
      | server =>
          have rich : middle.dev.numSelfTokens ≠ 0 := by
            rw [selfSame]
            exact fun none => poor ⟨rfl, none⟩
          have fund := takenLedger.self
          have small := takenLedger.selfSmall
          have paid : dec64 middle.dev.numSelfTokens + 1 = middle.dev.numSelfTokens := by
            rw [dec64_of_ne rich]
            omega
          have step := takenLedger.getServer
            { buf with origin := .server, tokenPrice := 1, refs := 1 } rfl _ paid
          exact step.unpaid ⟨rfl, rfl, Nat.le_refl _, fun _ => rfl⟩
      | none =>
          refine (takenLedger.accept (fun c _ _ => ?_) (by simp) (fun wrong => by cases wrong)).unpaid
            ⟨rfl, rfl, Nat.le_refl _, fun _ => rfl⟩
          exact priceFor_eq_zero (by simp)
      | serverNoToken =>
          refine (takenLedger.accept (fun c _ _ => ?_) (by simp) (fun wrong => by cases wrong)).unpaid
            ⟨rfl, rfl, Nat.le_refl _, fun _ => rfl⟩
          exact priceFor_eq_zero (by simp)

theorem poolAdd_fold (bufs : List SpiceCharDeviceWriteBuffer) (dev : SpiceCharDeviceState Msg) :
    Exists fun pool => bufs.foldl SpiceCharDeviceState.writeBufferPoolAdd dev = { dev with writeBufsPool := pool } := by
  induction bufs generalizing dev with
  | nil => exact ⟨dev.writeBufsPool, rfl⟩
  | cons buf rest ih =>
      rw [List.foldl_cons]
      rcases ih (dev.writeBufferPoolAdd buf) with ⟨pool, folded⟩
      refine ⟨pool, folded.trans ?_⟩
      unfold SpiceCharDeviceState.writeBufferPoolAdd
      split <;> rfl

/-- The buffers that stay weigh the same. -/
theorem weight_unlink (weight : SpiceCharDeviceWriteBuffer -> Nat) (client : Nat)
    (zero : forall buf, ownedBy client buf = true -> weight buf = 0)
    (neutral : forall buf : SpiceCharDeviceWriteBuffer, weight { buf with origin := .none, client := none } = 0)
    (held queue : List SpiceCharDeviceWriteBuffer) (cur : Option SpiceCharDeviceWriteBuffer) :
    ((held ++ (queue.filter (fun buf => !ownedBy client buf) ++ (cur.map (fun buf =>
      if ownedBy client buf then { buf with origin := .none, client := none } else buf)).toList)).map weight).sum =
    ((held ++ (queue ++ cur.toList)).map weight).sum := by
  have filtered : ((queue.filter (fun buf => !ownedBy client buf)).map weight).sum = (queue.map weight).sum := by
    induction queue with
    | nil => rfl
    | cons buf rest ih =>
        cases owned : ownedBy client buf with
        | true => simp [owned, ih, zero buf owned]
        | false => simp [owned, ih]
  have current : ((cur.map (fun buf =>
      if ownedBy client buf then { buf with origin := .none, client := none } else buf)).toList.map weight).sum =
      (cur.toList.map weight).sum := by
    cases cur with
    | none => rfl
    | some buf =>
        cases owned : ownedBy client buf with
        | true => simp [owned, zero buf owned, neutral buf]
        | false => simp [owned]
  simp only [List.map_append, List.sum_append, filtered, current]

/-- A client leaves, and with it the buffers it had paid for. -/
theorem unlink (ledger : Ledger selfTokens (outstanding e) e)
    (member : devClient ∈ e.dev.clients)
    (clear : forall buf, buf ∈ e.held -> ownedBy devClient.client buf = false) :
    Ledger selfTokens (outstanding { e with dev := e.dev.clientUnlink devClient })
      { e with dev := e.dev.clientUnlink devClient } := by
  rcases poolAdd_fold ((e.dev.writeQueue.filter (ownedBy devClient.client)).reverse)
    { e.dev with writeQueue := e.dev.writeQueue.filter (fun buf => !ownedBy devClient.client buf) } with
    ⟨pool, folded⟩
  have staying : forall c, c ∈ e.dev.clients -> c.key ≠ devClient.key -> c.client ≠ devClient.client := by
    intro c found different same
    exact different (congrArg _ (ledger.eq_of_client found member same))
  unfold SpiceCharDeviceState.clientUnlink outstanding
  simp only [folded]
  refine ⟨?_, ?_, ledger.selfSmall, ?_, ?_, ?_, ?_⟩
  · intro c found flow
    rcases List.mem_filter.mp found with ⟨old, different⟩
    have other := staying c old (by simpa using different)
    rw [prices, weight_unlink (priceFor c.client) devClient.client ?_ ?_]
    · exact ledger.paid c old flow
    · intro buf owned
      exact priceFor_other (ownedBy_iff.mp owned).2 other
    · intro buf
      exact priceFor_eq_zero (by simp)
  · rw [selfBuffers, weight_unlink _ devClient.client ?_ ?_]
    · exact ledger.self
    · intro buf owned
      rw [(ownedBy_iff.mp owned).1]
      rfl
    · intro buf
      rfl
  · intro buf found origin
    -- a buffer that is still priced was there before and is not the leaver's
    have kept : buf ∈ outstanding e ∧ ownedBy devClient.client buf = false := by
      rcases List.mem_append.mp found with held | rest
      · exact ⟨List.mem_append_left _ held, clear buf held⟩
      · rcases List.mem_append.mp rest with queued | current
        · rcases List.mem_filter.mp queued with ⟨old, notMine⟩
          exact ⟨List.mem_append_right _ (List.mem_append_left _ old), by simpa using notMine⟩
        · rcases Option.map_eq_some_iff.mp (Option.mem_toList.mp current) with ⟨old, curBuf, same⟩
          cases owned : ownedBy devClient.client old with
          | true =>
              rw [owned, if_pos rfl] at same
              rw [← same] at origin
              cases origin
          | false =>
              rw [owned, if_neg Bool.false_ne_true] at same
              rw [← same]
              exact ⟨List.mem_append_right _ (List.mem_append_right _ (Option.mem_toList.mpr curBuf)), owned⟩
    rcases ledger.owned buf kept.1 origin with ⟨c, cMember, owner⟩
    refine ⟨c, List.mem_filter.mpr ⟨cMember, ?_⟩, owner⟩
    have different : c.key ≠ devClient.key := by
      intro same
      rw [ledger.eq_of_key cMember member same] at owner
      rw [ownedBy_iff.mpr ⟨origin, owner⟩] at kept
      cases kept.2
    simpa using different
  · exact List.Sublist.nodup (List.Sublist.map _ List.filter_sublist) ledger.clients
  · exact List.Sublist.nodup (List.Sublist.map _ List.filter_sublist) ledger.keys
  · intro c found
    exact ledger.fresh c (List.mem_filter.mp found).1

/-- A new client starts with what it was configured with: nobody owes it anything. -/
theorem attach (ledger : Ledger selfTokens bufs e)
    (absent : devClient.client ∉ e.dev.clients.map (fun c => c.client)) (key : devClient.key = e.fresh)
    (clients : next.dev.clients = devClient :: e.dev.clients) (self : next.dev.numSelfTokens = e.dev.numSelfTokens)
    (fresh : next.fresh = e.fresh + 1) {sendTokens : Nat}
    (trace : next.trace = .attached e.fresh devClient.client devClient.doFlowControl
      devClient.numClientTokens sendTokens :: e.trace) (free : devClient.numClientTokensFree = 0)
    (small : devClient.doFlowControl = true -> devClient.numClientTokens < 2 ^ 32) : Ledger selfTokens bufs next := by
  have older : forall c, c ∈ e.dev.clients -> initialTokens c.key next.trace = initialTokens c.key e.trace := by
    intro c member
    rw [trace, initialTokens, if_neg]
    exact fun same => Nat.lt_irrefl _ (same ▸ ledger.fresh c member)
  have nothing : prices devClient.client bufs = 0 := by
    apply List.sum_eq_zero
    intro price member
    rcases List.mem_map.mp member with ⟨buf, bufMember, same⟩
    rw [← same, priceFor, if_neg]
    intro owned
    rcases ownedBy_iff.mp owned with ⟨origin, owner⟩
    rcases ledger.owned buf bufMember origin with ⟨c, cMember, cOwner⟩
    rw [owner] at cOwner
    apply absent
    rw [Option.some.inj cOwner]
    exact List.mem_map_of_mem cMember
  refine ⟨?_, by rw [self]; exact ledger.self, ledger.selfSmall, ?_, ?_, ?_, ?_⟩
  · intro c member flow
    rw [clients] at member
    rcases List.mem_cons.mp member with same | old
    · subst same
      rw [trace, initialTokens, if_pos key.symm, nothing, free]
      exact ⟨rfl, small flow⟩
    · rw [older c old]
      exact ledger.paid c old flow
  · intro buf member origin
    rcases ledger.owned buf member origin with ⟨c, cMember, owner⟩
    exact ⟨c, by rw [clients]; exact List.mem_cons_of_mem _ cMember, owner⟩
  · rw [clients, List.map_cons]
    exact List.nodup_cons.mpr ⟨absent, ledger.clients⟩
  · rw [clients, List.map_cons, key]
    refine List.nodup_cons.mpr ⟨fun member => ?_, ledger.keys⟩
    rcases List.mem_map.mp member with ⟨c, cMember, same⟩
    exact Nat.lt_irrefl _ (same ▸ ledger.fresh c cMember)
  · intro c member
    rw [clients] at member
    rw [fresh]
    rcases List.mem_cons.mp member with same | old
    · rw [same, key]
      exact Nat.lt_succ_self _
    · exact Nat.lt_succ_of_lt (ledger.fresh c old)

theorem keep (ledger : Ledger selfTokens (outstanding e) e) (same : Unpaid e next)
    (out : outstanding next = outstanding e) : Ledger selfTokens (outstanding next) next := by
  rw [out]
  exact ledger.unpaid same

theorem clientTokensAdd_frame (dev : SpiceCharDeviceState Msg) (devClient : SpiceCharDeviceClientState Msg)
    (numTokens : Nat) :
    (dev.clientTokensAdd devClient numTokens).1.writeQueue = dev.writeQueue ∧
      (dev.clientTokensAdd devClient numTokens).1.curWriteBuf = dev.curWriteBuf := by
  unfold SpiceCharDeviceState.clientTokensAdd
  simp only
  split
  · split <;> exact ⟨rfl, rfl⟩
  · exact ⟨rfl, rfl⟩

theorem outstanding_release (e : Exec Msg) (buf : SpiceCharDeviceWriteBuffer) :
    outstanding (e.writeBufferRelease buf) = outstanding e := by
  have pool : outstanding ({ e with dev := e.dev.writeBufferPoolAdd buf } : Exec Msg) = outstanding e := by
    unfold SpiceCharDeviceState.writeBufferPoolAdd
    split <;> rfl
  refine Eq.trans ?_ pool
  unfold Exec.writeBufferRelease
  cases buf.origin with
  | client =>
      simp only
      split
      · rfl
      · next devClient _ =>
          have frame := clientTokensAdd_frame (e.dev.writeBufferPoolAdd buf) devClient buf.tokenPrice
          split
          · next dev added =>
              rw [added] at frame
              exact outstanding_eq rfl frame.1 frame.2
          · next dev added =>
              rw [added] at frame
              exact outstanding_eq rfl frame.1 frame.2
  | server => rfl
  | none => rfl
  | serverNoToken => rfl

theorem released (ledger : Ledger selfTokens (outstanding e) e) (same : Unpaid e next)
    (taken : (outstanding e).Perm (buf :: outstanding next)) :
    Ledger selfTokens (outstanding (next.writeBufferRelease buf)) (next.writeBufferRelease buf) := by
  rw [outstanding_release]
  exact ((ledger.unpaid same).perm taken).release

theorem perm_cur {cur : Option SpiceCharDeviceWriteBuffer} (held queue : List SpiceCharDeviceWriteBuffer)
    (current : cur = some buf) : (held ++ (queue ++ cur.toList)).Perm (buf :: (held ++ (queue ++ []))) := by
  rw [current, ← List.append_assoc, ← List.append_assoc, List.append_nil]
  exact List.perm_append_singleton buf (held ++ queue)

theorem perm_queue (held rest cur : List SpiceCharDeviceWriteBuffer) :
    (held ++ (buf :: rest ++ cur)).Perm (buf :: (held ++ (rest ++ cur))) :=
  List.perm_middle

/-- A round moves a buffer only. -/
theorem writeRound (ledger : Ledger selfTokens (outstanding e) e) (total : Nat) :
    Ledger selfTokens (outstanding (e.writeRound total)) (e.writeRound total) := by
  have ended : outstanding (e.writeEnd total) = outstanding e := by
    unfold Exec.writeEnd
    split
    · split <;> rfl
    · rfl
  unfold Exec.writeRound
  split
  · split
    · exact ledger.keep ⟨rfl, rfl, Nat.le_refl _, fun _ => rfl⟩ rfl
    · next none =>
        split
        · exact ledger.keep (Unpaid.writeEnd e total) ended
        · next buf rest queue =>
            have moved : (outstanding e).Perm (e.held ++ (rest ++ (some buf).toList)) := by
              unfold outstanding
              rw [queue, none]
              refine List.Perm.append_left _ ?_
              show (buf :: rest ++ []).Perm (rest ++ [buf])
              rw [List.append_nil]
              exact (List.perm_append_singleton buf rest).symm
            exact (ledger.perm moved).unpaid ⟨rfl, rfl, Nat.le_refl _, fun _ => rfl⟩
  · exact ledger.keep (Unpaid.writeEnd e total) ended

/-- A buffer that is written gives its tokens back. -/
theorem wrote (ledger : Ledger selfTokens (outstanding e) e) {n : Int} {writeLen total : Nat}
    (done : e.wrote n writeLen total = some next) : Ledger selfTokens (outstanding next) next := by
  unfold Exec.wrote at done
  split at done
  · split at done
    · cases done
      exact ledger.keep ⟨rfl, rfl, Nat.le_refl _, fun _ => rfl⟩ rfl
    · cases done
      refine ledger.keep (Unpaid.writeEnd e total) ?_
      unfold Exec.writeEnd
      split
      · split <;> rfl
      · rfl
  · split at done
    · cases done
    · split at done
      · split at done
        · cases done
        · next buf current =>
            cases done
            exact ledger.released ⟨rfl, rfl, Nat.le_refl _, fun _ => rfl⟩ (perm_cur _ _ current)
      · cases done
        exact ledger.keep ⟨rfl, rfl, Nat.le_refl _, fun _ => rfl⟩ rfl

theorem outstanding_readFromDevice (e : Exec Msg) : outstanding e.readFromDevice = outstanding e := by
  unfold Exec.readFromDevice
  split
  · rfl
  · split <;> rfl

theorem outstanding_writeToDevice (e : Exec Msg) : outstanding e.writeToDevice = outstanding e := by
  unfold Exec.writeToDevice
  split
  · rfl
  · split <;> rfl

theorem outstanding_readEnd (e : Exec Msg) (didRead : Bool) : outstanding (e.readEnd didRead) = outstanding e := by
  unfold Exec.readEnd
  split <;> rfl

theorem thenRead (ledger : Ledger selfTokens (outstanding e) e) :
    Ledger selfTokens (outstanding e.readFromDevice) e.readFromDevice :=
  ledger.keep (Unpaid.readFromDevice e) (outstanding_readFromDevice e)

theorem thenWrite (ledger : Ledger selfTokens (outstanding e) e) :
    Ledger selfTokens (outstanding e.writeToDevice) e.writeToDevice :=
  ledger.keep (Unpaid.writeToDevice e) (outstanding_writeToDevice e)

theorem thenSet (ledger : Ledger selfTokens (outstanding e) e) (key : Nat)
    (change : SpiceCharDeviceClientState Msg -> SpiceCharDeviceClientState Msg)
    (clients : next.dev.clients = (e.dev.setClient key change).clients)
    (keeps : forall devClient, tokenView (change devClient) = tokenView devClient)
    (self : next.dev.numSelfTokens = e.dev.numSelfTokens) (fresh : next.fresh = e.fresh)
    (trace : forall key, initialTokens key next.trace = initialTokens key e.trace)
    (out : outstanding next = outstanding e) : Ledger selfTokens (outstanding next) next := by
  refine ledger.keep ⟨?_, self, Nat.le_of_eq fresh.symm, trace⟩ out
  rw [clients]
  exact Unpaid.setClient e.dev key change keeps

theorem readOne (ledger : Ledger selfTokens (outstanding e) e) (msg : Option Msg) (maxSendTokens : Nat)
    (didRead : Bool) :
    Ledger selfTokens (outstanding (e.readOne msg maxSendTokens didRead)) (e.readOne msg maxSendTokens didRead) := by
  unfold Exec.readOne
  split
  · split
    · exact ledger.keep ⟨rfl, rfl, Nat.le_refl _, fun _ => rfl⟩ rfl
    · exact ledger.keep (Unpaid.readEnd e didRead) (outstanding_readEnd e didRead)
  · exact ledger.keep ⟨rfl, rfl, Nat.le_refl _, fun _ => rfl⟩ rfl

/-- Sending costs no tokens of this kind. -/
theorem sendRound (ledger : Ledger selfTokens (outstanding e) e) {msg : Msg} {item : Option Nat}
    (done : e.sendRound msg item = some next) : Ledger selfTokens (outstanding next) next := by
  cases item with
  | none =>
      cases done
      exact ledger.keep ⟨rfl, rfl, Nat.le_refl _, fun _ => rfl⟩ rfl
  | some key =>
      simp only [Exec.sendRound] at done
      split at done
      · cases done
      · split at done
        · split at done
          · cases done
            exact ledger.thenSet key spendSendToken rfl (fun _ => rfl) rfl rfl (fun _ => rfl) rfl
          · cases done
            exact ledger.thenSet key spendSendToken rfl (fun _ => rfl) rfl rfl (fun _ => rfl) rfl
        · split at done
          · cases done
            exact ledger.keep ⟨rfl, rfl, Nat.le_refl _, fun _ => rfl⟩ rfl
          · cases done
            exact ledger.thenSet key _ rfl (fun _ => rfl) rfl rfl (fun _ => rfl) rfl

theorem pushRound (ledger : Ledger selfTokens (outstanding e) e) {key : Nat}
    (done : e.pushRound key = some next) : Ledger selfTokens (outstanding next) next := by
  unfold Exec.pushRound at done
  split at done
  · cases done
  · split at done
    · cases done
      exact ledger.keep ⟨rfl, rfl, Nat.le_refl _, fun _ => rfl⟩ rfl
    · split at done
      · cases done
        exact ledger.thenSet key _ rfl (fun _ => rfl) rfl rfl (fun _ => rfl) rfl
      · cases done
        exact ledger.keep ⟨rfl, rfl, Nat.le_refl _, fun _ => rfl⟩ rfl

theorem pushNext (ledger : Ledger selfTokens (outstanding e) e) {key : Nat}
    (done : e.pushNext key = some next) : Ledger selfTokens (outstanding next) next := by
  unfold Exec.pushNext at done
  split at done
  · cases done
  · cases done
    exact ledger.thenSet key _ rfl (fun _ => rfl) rfl rfl (fun _ => rfl) rfl

theorem tokensAbsorb (ledger : Ledger selfTokens (outstanding e) e) (devClient : SpiceCharDeviceClientState Msg)
    (tokens : Nat) :
    Ledger selfTokens (outstanding (e.tokensAbsorb devClient tokens)) (e.tokensAbsorb devClient tokens) := by
  unfold Exec.tokensAbsorb
  simp only
  split
  · exact ledger.thenSet devClient.key _ rfl (fun _ => rfl) rfl rfl (fun _ => rfl) rfl
  · split <;> exact ledger.thenSet devClient.key _ rfl (fun _ => rfl) rfl rfl (fun _ => rfl) rfl

theorem absorbRest (ledger : Ledger selfTokens (outstanding e) e) {key : Nat}
    (done : e.absorbRest key = some next) : Ledger selfTokens (outstanding next) next := by
  unfold Exec.absorbRest at done
  split at done
  · cases done
  · split at done
    · cases done
      apply thenRead
      exact ledger.thenSet key _ rfl (fun _ => rfl) rfl rfl (fun _ => rfl) rfl
    · split at done
      · cases done
        exact ledger.thenSet key _ rfl (fun _ => rfl) rfl rfl (fun _ => rfl) rfl
      · cases done
        exact ledger.keep ⟨rfl, rfl, Nat.le_refl _, fun _ => rfl⟩ rfl

/-- Freeing a send queue costs no tokens of this kind. -/
theorem queueFreeRound (ledger : Ledger selfTokens (outstanding e) e) {key : Nat} {caller : QueueFreeCaller}
    (clear : caller = .remove -> forall devClient, e.dev.clientAt key = some devClient ->
      forall buf, buf ∈ e.held -> ownedBy devClient.client buf = false)
    (done : e.queueFreeRound key caller = some next) : Ledger selfTokens (outstanding next) next := by
  unfold Exec.queueFreeRound at done
  split at done
  · cases done
  · next devClient found =>
      split at done
      · cases done
        exact ledger.thenSet key _ rfl (fun _ => rfl) rfl rfl (fun _ => rfl) rfl
      · -- the freed client keeps its address, its owner and its write tokens
        generalize changeEq : (fun c : SpiceCharDeviceClientState Msg => { c with
            numSendTokens := add64 c.numSendTokens c.sendQueueSize, sendQueueSize := 0 }) = change at done
        have keeps : forall c, tokenView (change c) = tokenView c := by
          intro c
          rw [← changeEq]
          rfl
        have freed : Ledger selfTokens (outstanding ({ e with dev := e.dev.setClient key change } : Exec Msg))
            { e with dev := e.dev.setClient key change } :=
          ledger.thenSet key change rfl keeps rfl rfl (fun _ => rfl) rfl
        cases caller with
        | reset =>
            cases done
            exact freed.keep ⟨rfl, rfl, Nat.le_refl _, fun _ => rfl⟩ rfl
        | remove =>
            cases done
            have member := List.mem_of_find?_eq_some found
            have here : devClient.key = key := by simpa using List.find?_some found
            have view := keeps devClient
            simp only [tokenView, Prod.mk.injEq] at view
            have changed : change devClient ∈ (e.dev.setClient key change).clients := by
              refine List.mem_map.mpr ⟨devClient, member, ?_⟩
              rw [if_pos here]
            have same : (e.dev.setClient key change).clientUnlink devClient =
                (e.dev.setClient key change).clientUnlink (change devClient) := by
              unfold SpiceCharDeviceState.clientUnlink
              rw [view.1, view.2.1]
            simp only [same]
            refine Ledger.keep (freed.unlink changed ?_) ⟨rfl, rfl, Nat.le_refl _, fun _ => rfl⟩ rfl
            rw [view.2.1]
            exact clear rfl devClient found

/-- A client brings its tokens along. -/
theorem clientAdd (ledger : Ledger selfTokens (outstanding e) e) {client : Nat}
    (absent : client ∉ e.dev.clients.map (fun devClient => devClient.client)) (flow : Bool)
    (maxQueue clientTokens sendTokens : Nat) (wait : Bool) :
    Ledger selfTokens (outstanding (e.clientAdd client flow maxQueue clientTokens sendTokens wait))
      (e.clientAdd client flow maxQueue clientTokens sendTokens wait) := by
  unfold Exec.clientAdd
  split
  · exact ledger.keep ⟨rfl, rfl, Nat.le_refl _, fun _ => rfl⟩ rfl
  · apply thenWrite
    refine ledger.attach ?_ rfl rfl rfl rfl rfl rfl ?_
    · exact absent
    · intro flowing
      change flow = true at flowing
      show (if flow = true then clientTokens % 2 ^ 32 else 2 ^ 64 - 1) < 2 ^ 32
      rw [if_pos flowing]
      exact Nat.mod_lt _ (by decide)

/-- A buffer goes from its holder to the queue. -/
theorem writeBufferAdd (ledger : Ledger selfTokens (outstanding e) e) {key : Nat}
    (found : e.held.find? (fun buf => buf.key = key) = some buf) :
    Ledger selfTokens
      (outstanding (({ e with held := e.held.eraseP (fun other => other.key = key) } : Exec Msg).writeBufferAdd buf))
      (({ e with held := e.held.eraseP (fun other => other.key = key) } : Exec Msg).writeBufferAdd buf) := by
  have taken : (outstanding e).Perm
      (buf :: (e.held.eraseP (fun other => other.key = key) ++ (e.dev.writeQueue ++ e.dev.curWriteBuf.toList))) :=
    (perm_eraseP found).append_right _
  have owner := fun origin => ledger.find_owner (taken.mem_iff.mpr List.mem_cons_self) origin
  unfold Exec.writeBufferAdd
  split
  · next lost =>
      rcases owner lost.1 with ⟨devClient, _, client, attached⟩
      rw [client, Option.bind_some] at lost
      have absent := lost.2
      simp only at absent
      rw [attached] at absent
      cases absent
  · apply thenWrite
    refine (ledger.perm (taken.trans ?_)).unpaid ⟨rfl, rfl, Nat.le_refl _, fun _ => rfl⟩
    show (buf :: (_ ++ (e.dev.writeQueue ++ _))).Perm (_ ++ ((e.dev.writeQueue ++ [buf]) ++ _))
    refine List.perm_middle.symm.trans (List.Perm.append_left _ ?_)
    rw [List.append_assoc]
    exact List.perm_middle.symm

/-- A call within the contract keeps the ledger. -/
theorem callStep (ledger : Ledger selfTokens (outstanding e) e) {call : Call}
    (contract : WriteContract e (.call call)) (done : e.callStep call = some next) :
    Ledger selfTokens (outstanding next) next := by
  cases call with
  | clientAdd client flow maxQueue clientTokens sendTokens wait =>
      cases done
      exact ledger.clientAdd contract flow maxQueue clientTokens sendTokens wait
  | clientRemove client =>
      simp only [Exec.callStep] at done
      split at done <;> cases done <;> exact ledger.keep ⟨rfl, rfl, Nat.le_refl _, fun _ => rfl⟩ rfl
  | sendToClientTokensAdd client tokens =>
      simp only [Exec.callStep] at done
      split at done
      · cases done
        exact ledger.keep ⟨rfl, rfl, Nat.le_refl _, fun _ => rfl⟩ rfl
      · cases done
        apply tokensAbsorb
        exact ledger.keep ⟨rfl, rfl, Nat.le_refl _, fun _ => rfl⟩ rfl
  | sendToClientTokensSet client tokens =>
      simp only [Exec.callStep] at done
      split at done
      · cases done
        exact ledger.keep ⟨rfl, rfl, Nat.le_refl _, fun _ => rfl⟩ rfl
      · cases done
        apply tokensAbsorb
        exact ledger.keep ⟨rfl, rfl, Nat.le_refl _, fun _ => rfl⟩ rfl
  | writeBufferGet client size =>
      cases client with
      | some client =>
          cases done
          exact ledger.get client size .client
      | none =>
          cases done
          exact ledger.get 0 size .server
  | writeBufferGetServerNoToken size =>
      cases done
      exact ledger.get 0 size .serverNoToken
  | writeBufferAdd key =>
      simp only [Exec.callStep] at done
      split at done
      · cases done
      · next buf found =>
          cases done
          exact ledger.writeBufferAdd found
  | writeBufferRelease key =>
      simp only [Exec.callStep] at done
      split at done
      · cases done
      · next buf found =>
          cases done
          exact ledger.released ⟨rfl, rfl, Nat.le_refl _, fun _ => rfl⟩ ((perm_eraseP found).append_right _)
  | writeRetry =>
      cases done
      exact ledger.thenWrite
  | waitForTokensTimeout key =>
      simp only [Exec.callStep] at done
      split at done
      · cases done
      · cases done
        exact ledger.keep ⟨rfl, rfl, Nat.le_refl _, fun _ => rfl⟩ rfl
  | start =>
      cases done
      apply thenWrite
      exact ledger.keep ⟨rfl, rfl, Nat.le_refl _, fun _ => rfl⟩ rfl
  | stop =>
      cases done
      exact ledger.keep ⟨rfl, rfl, Nat.le_refl _, fun _ => rfl⟩ rfl
  | reset =>
      cases done
      exact ledger.keep ⟨rfl, rfl, Nat.le_refl _, fun _ => rfl⟩ rfl
  | resetDevInstance =>
      cases done
      exact ledger.keep ⟨rfl, rfl, Nat.le_refl _, fun _ => rfl⟩ rfl
  | wakeup =>
      cases done
      apply thenWrite
      exact ledger.keep ⟨rfl, rfl, Nat.le_refl _, fun _ => rfl⟩ rfl

theorem readRound (ledger : Ledger selfTokens (outstanding e) e) (maxSendTokens : Nat) (didRead : Bool) :
    Ledger selfTokens (outstanding (e.readRound maxSendTokens didRead)) (e.readRound maxSendTokens didRead) := by
  unfold Exec.readRound
  split
  · exact ledger.keep ⟨rfl, rfl, Nat.le_refl _, fun _ => rfl⟩ rfl
  · exact ledger.keep (Unpaid.readEnd e didRead) (outstanding_readEnd e didRead)

theorem resetQueueRound (ledger : Ledger selfTokens (outstanding e) e) :
    Ledger selfTokens (outstanding e.resetQueueRound) e.resetQueueRound := by
  unfold Exec.resetQueueRound
  split
  · exact ledger.keep ⟨rfl, rfl, Nat.le_refl _, fun _ => rfl⟩ rfl
  · next buf queue queued =>
      refine ledger.released ⟨rfl, rfl, Nat.le_refl _, fun _ => rfl⟩ ?_
      unfold outstanding
      rw [queued]
      exact perm_queue _ _ _

theorem resetCurRound (ledger : Ledger selfTokens (outstanding e) e) :
    Ledger selfTokens (outstanding e.resetCurRound) e.resetCurRound := by
  unfold Exec.resetCurRound
  split
  · exact ledger.keep ⟨rfl, rfl, Nat.le_refl _, fun _ => rfl⟩ rfl
  · next buf current =>
      exact ledger.released ⟨rfl, rfl, Nat.le_refl _, fun _ => rfl⟩ (perm_cur _ _ current)

/-- Going on with what is in progress keeps the ledger. -/
theorem tickStep (ledger : Ledger selfTokens (outstanding e) e) (contract : WriteContract e .tick)
    (done : e.tickStep = some next) : Ledger selfTokens (outstanding next) next := by
  unfold Exec.tickStep at done
  split at done
  · cases done
  · next frame rest stack =>
      cases frame with
      | writeLoop total =>
          cases done
          exact ledger.writeRound total
      | writeCall writeLen total => cases done
      | sendTokens =>
          cases done
          exact ledger.keep ⟨rfl, rfl, Nat.le_refl _, fun _ => rfl⟩ rfl
      | freeSelfToken =>
          cases done
          exact ledger.keep ⟨rfl, rfl, Nat.le_refl _, fun _ => rfl⟩ rfl
      | sendCall =>
          cases done
          exact ledger.keep ⟨rfl, rfl, Nat.le_refl _, fun _ => rfl⟩ rfl
      | overflowCall =>
          cases done
          exact ledger.keep ⟨rfl, rfl, Nat.le_refl _, fun _ => rfl⟩ rfl
      | freeUnref =>
          cases done
          exact ledger.keep ⟨rfl, rfl, Nat.le_refl _, fun _ => rfl⟩ rfl
      | readLoop maxSendTokens didRead =>
          cases done
          exact ledger.readRound maxSendTokens didRead
      | readCall maxSendTokens didRead => cases done
      | readUnref maxSendTokens =>
          cases done
          exact ledger.keep ⟨rfl, rfl, Nat.le_refl _, fun _ => rfl⟩ rfl
      | sendLoop msg item => exact ledger.sendRound done
      | pushLoop key => exact ledger.pushRound done
      | pushUnref key => exact ledger.pushNext done
      | absorbEnd key => exact ledger.absorbRest done
      | resetQueue =>
          cases done
          exact ledger.resetQueueRound
      | resetCur =>
          cases done
          exact ledger.resetCurRound
      | resetFirst =>
          cases done
          exact ledger.keep ⟨rfl, rfl, Nat.le_refl _, fun _ => rfl⟩ rfl
      | resetClients item =>
          cases item with
          | none =>
              cases done
              exact ledger.keep ⟨rfl, rfl, Nat.le_refl _, fun _ => rfl⟩ rfl
          | some key =>
              cases done
              exact ledger.keep ⟨rfl, rfl, Nat.le_refl _, fun _ => rfl⟩ rfl
      | queueFree key caller =>
          refine ledger.queueFreeRound (fun remove => ?_) done
          subst remove
          exact contract key rest stack
      | clientRemoved =>
          simp only at done
          split at done
          · split at done
            · cases done
              exact ledger.keep ⟨rfl, rfl, Nat.le_refl _, fun _ => rfl⟩ rfl
            · cases done
              apply thenRead
              exact ledger.keep ⟨rfl, rfl, Nat.le_refl _, fun _ => rfl⟩ rfl
          · cases done
            exact ledger.keep ⟨rfl, rfl, Nat.le_refl _, fun _ => rfl⟩ rfl
      | wakeupRead =>
          cases done
          apply thenRead
          exact ledger.keep ⟨rfl, rfl, Nat.le_refl _, fun _ => rfl⟩ rfl
      | startRead =>
          simp only at done
          split at done
          · cases done
            exact ledger.thenWrite
          · cases done
            apply thenRead
            exact ledger.keep ⟨rfl, rfl, Nat.le_refl _, fun _ => rfl⟩ rfl
      | startCheck =>
          simp only at done
          split at done
          · cases done
            apply thenWrite
            exact ledger.keep ⟨rfl, rfl, Nat.le_refl _, fun _ => rfl⟩ rfl
          · cases done
            exact ledger.keep ⟨rfl, rfl, Nat.le_refl _, fun _ => rfl⟩ rfl
      | getError buf =>
          cases done
          exact ledger.keep ⟨rfl, rfl, Nat.le_refl _, fun _ => rfl⟩ rfl

/-- Filling a buffer changes neither its owner nor its price. -/
theorem fill (ledger : Ledger selfTokens (outstanding e) e) (key : Nat) (bytes : List UInt8) :
    Ledger selfTokens
      (outstanding { e with held := e.held.map (fun buf =>
        if buf.key = key ∧ bytes.length ≤ buf.bufSize then { buf with buf := bytes } else buf) })
      { e with held := e.held.map (fun buf =>
        if buf.key = key ∧ bytes.length ≤ buf.bufSize then { buf with buf := bytes } else buf) } := by
  generalize fillEq : (fun buf : SpiceCharDeviceWriteBuffer =>
    if buf.key = key ∧ bytes.length ≤ buf.bufSize then { buf with buf := bytes } else buf) = filled
  have same : forall buf, (filled buf).origin = buf.origin ∧ (filled buf).client = buf.client ∧
      (filled buf).tokenPrice = buf.tokenPrice := by
    intro buf
    rw [← fillEq]
    simp only
    split <;> exact ⟨rfl, rfl, rfl⟩
  have weighs : forall weight : SpiceCharDeviceWriteBuffer -> Nat,
      (forall buf, weight (filled buf) = weight buf) ->
      ((e.held.map filled ++ (e.dev.writeQueue ++ e.dev.curWriteBuf.toList)).map weight).sum =
        ((outstanding e).map weight).sum := by
    intro weight keeps
    simp only [outstanding, List.map_append, List.sum_append, List.map_map]
    congr 2
    apply List.map_congr_left
    intro buf _
    exact keeps buf
  refine ⟨?_, ?_, ledger.selfSmall, ?_, ledger.clients, ledger.keys, ledger.fresh⟩
  · intro c member flow
    have prices := weighs (priceFor c.client) (fun buf => by
      unfold priceFor ownedBy
      rw [(same buf).1, (same buf).2.1, (same buf).2.2])
    rw [CharDevice.prices]
    unfold outstanding
    simp only
    rw [prices]
    exact ledger.paid c member flow
  · have selfs := weighs (fun buf => if buf.origin = .server then 1 else 0) (fun buf => by simp only [same])
    rw [selfBuffers]
    unfold outstanding
    simp only
    rw [selfs]
    exact ledger.self
  · intro buf member origin
    rcases List.mem_append.mp member with held | rest
    · rcases List.mem_map.mp held with ⟨old, oldMember, equal⟩
      rw [← equal, (same old).1] at origin
      rcases ledger.owned old (List.mem_append_left _ oldMember) origin with ⟨c, cMember, owner⟩
      refine ⟨c, cMember, ?_⟩
      rw [← equal, (same old).2.1]
      exact owner
    · exact ledger.owned buf (List.mem_append_right _ rest) origin

/-- Every event within the contract keeps the ledger. -/
theorem step (ledger : Ledger selfTokens (outstanding e) e) {event : Event Msg}
    (contract : WriteContract e event) (done : e.step event = some next) :
    Ledger selfTokens (outstanding next) next := by
  unfold Exec.step at done
  split at done
  · cases done
  · split at done
    · split at done
      · exact ledger.callStep contract done
      · cases done
    · split at done
      · cases done
        exact ledger.fill _ _
      · cases done
    · split at done
      · exact ledger.wrote done
      · cases done
    · split at done
      · cases done
        exact ledger.readOne _ _ _
      · cases done
    · exact ledger.tickStep contract done

theorem create (clientTokensInterval selfTokens : Nat) :
    Ledger (selfTokens % 2 ^ 32) (outstanding (stateCreate Msg clientTokensInterval selfTokens))
      (stateCreate Msg clientTokensInterval selfTokens) where
  paid := by intro devClient member; cases member
  self := rfl
  selfSmall := Nat.mod_lt _ (by decide)
  owned := by intro buf member; cases member
  clients := List.nodup_nil
  keys := List.nodup_nil
  fresh := by intro devClient member; cases member

end Ledger

/-- In every state that any run reaches, with re-entrant calls from every
callback, the tokens of every flow-controlled client and of the server add up
to what was configured. -/
theorem writeTokens_conserved (clientTokensInterval selfTokens : Nat) (events : List (Event Msg))
    (contract : Meets Exec.step (fun _ e event => WriteContract e event) []
      (stateCreate Msg clientTokensInterval selfTokens) events)
    (e : Exec Msg) (ran : run Exec.step (stateCreate Msg clientTokensInterval selfTokens) events = some e) :
    TokensConserved (selfTokens % 2 ^ 32) e := by
  have keep : forall (past : List (Event Msg)) (state : Exec Msg) event next,
      Ledger (selfTokens % 2 ^ 32) (outstanding state) state -> WriteContract state event ->
        state.step event = some next -> Ledger (selfTokens % 2 ^ 32) (outstanding next) next :=
    fun _ _ _ _ ledger met done => ledger.step met done
  have ledger := run_invariant_of_meets keep events [] _ e (Ledger.create _ _) contract ran
  exact ⟨fun devClient member flow => (ledger.paid devClient member flow).1, ledger.self⟩

/-- A client is attached, obtains two buffers, and gives one of them back. -/
theorem writeTokens_conserved_release : Exists fun e : Exec Nat => run Exec.step (stateCreate Nat 2 1)
      [.call (.clientAdd 7 true 5 3 2 false), .tick, .call (.writeBufferGet (some 7) 16),
        .call (.writeBufferGet (some 7) 16), .call (.writeBufferRelease 2)] = some e ∧
      e.held.length = 1 ∧ TokensConserved 1 e := by
  refine ⟨_, rfl, rfl, writeTokens_conserved 2 1
    [.call (.clientAdd 7 true 5 3 2 false), .tick, .call (.writeBufferGet (some 7) 16),
      .call (.writeBufferGet (some 7) 16), .call (.writeBufferRelease 2)] ?_ _ rfl⟩
  refine ⟨?_, fun added stepped => ⟨?_, fun _ _ => ⟨trivial, fun _ _ => ⟨trivial, fun _ _ => ⟨trivial, ?_⟩⟩⟩⟩⟩
  · exact List.not_mem_nil
  · cases stepped
    intro key rest stack
    cases stack
  · intro _ _
    trivial

end CharDevice
end Spice
