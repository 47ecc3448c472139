import Spice.CharDevice.SendView

namespace Spice
namespace CharDevice

open Lib

variable {Msg : Type}

/-!
# Send tokens

A flow-controlled client is sent no more messages than it granted tokens for.
The balance `num_send_tokens` is what was granted and not used yet.  Freeing
the queue of a client adds the number of queued messages to the balance, as if
they had been paid for when they were queued; they had not.  So a reset is
harmless only while the queue is empty.
-/

/-- The messages handed to the client at an address. -/
def sentCount (key : Nat) : List (Obs Msg) -> Nat
  | [] => 0
  | .sent other _ :: rest => if other = key then sentCount key rest + 1 else sentCount key rest
  | _ :: rest => sentCount key rest

/-- The send tokens granted to the client at an address: the initial ones and
all additions, where setting the balance grants what makes it so. -/
def grantedTokens (key : Nat) : List (Obs Msg) -> Nat
  | [] => 0
  | .attached other _ _ _ tokens :: rest => if other = key then tokens else grantedTokens key rest
  | .granted other tokens :: rest =>
      if other = key then grantedTokens key rest + tokens else grantedTokens key rest
  | .set other tokens :: rest =>
      if other = key then sentCount key rest + tokens else grantedTokens key rest
  | _ :: rest => grantedTokens key rest

/-- Whether the client at an address was attached with flow control. -/
def flowControlled (key : Nat) : List (Obs Msg) -> Bool
  | [] => false
  | .attached other _ flow _ _ :: rest => if other = key then flow else flowControlled key rest
  | _ :: rest => flowControlled key rest

/-- No flow-controlled client was ever sent more than it granted. -/
def SentWithinGrants (e : Exec Msg) : Prop :=
  forall key, flowControlled key e.trace = true -> sentCount key e.trace ≤ grantedTokens key e.trace

/-- A reset that comes to free the queue of a flow-controlled client finds it empty. -/
def resetsEmptyQueues (e : Exec Msg) : Event Msg -> Bool
  | .tick =>
      match e.stack with
      | .queueFree key .reset :: _ =>
          match e.dev.clientAt key with
          | some devClient => !devClient.doFlowControl || devClient.sendQueueSize == 0
          | none => true
      | _ => true
  | _ => true

def balanceView (devClient : SpiceCharDeviceClientState Msg) : Nat × Bool × Nat :=
  (devClient.key, devClient.doFlowControl, devClient.numSendTokens)

/-- The balances of the attached clients, and the bound for all clients ever attached. -/
structure Balances (e : Exec Msg) : Prop where
  keys : (e.dev.clients.map (fun devClient => devClient.key)).Nodup
  fresh : forall devClient, devClient ∈ e.dev.clients -> devClient.key < e.fresh
  unused : forall key, e.fresh ≤ key -> sentCount key e.trace = 0
  flow : forall devClient, devClient ∈ e.dev.clients ->
    flowControlled devClient.key e.trace = devClient.doFlowControl
  balance : forall devClient, devClient ∈ e.dev.clients -> devClient.doFlowControl = true ->
    sentCount devClient.key e.trace + devClient.numSendTokens ≤ grantedTokens devClient.key e.trace
  bounded : SentWithinGrants e

/-- A step that changes no balance. -/
structure Unspent (e next : Exec Msg) : Prop where
  clients : next.dev.clients.map balanceView = e.dev.clients.map balanceView
  fresh : e.fresh ≤ next.fresh
  sent : forall key, sentCount key next.trace = sentCount key e.trace
  granted : forall key, grantedTokens key next.trace = grantedTokens key e.trace
  flow : forall key, flowControlled key next.trace = flowControlled key e.trace

theorem SendSame.unspent {e next : Exec Msg} (same : SendSame e next) : Unspent e next := by
  have trace := same.trace
  refine ⟨?_, same.fresh, ?_, ?_, ?_⟩
  · have views := congrArg (List.map balanceView) same.clients
    rw [List.map_map, List.map_map] at views
    exact views
  · rw [trace]
    exact fun _ => rfl
  · rw [trace]
    exact fun _ => rfl
  · rw [trace]
    exact fun _ => rfl

namespace Balances

variable {e next : Exec Msg}

/-- Steps that spend nothing keep the balances. -/
theorem unspent (balances : Balances e) (same : Unspent e next) : Balances next := by
  have views := same.clients
  have back : forall devClient, devClient ∈ next.dev.clients ->
      Exists fun old => old ∈ e.dev.clients ∧ balanceView old = balanceView devClient := by
    intro devClient member
    have mapped : balanceView devClient ∈ e.dev.clients.map balanceView := by
      rw [← views]
      exact List.mem_map_of_mem member
    exact List.mem_map.mp mapped
  have keyViews : next.dev.clients.map (fun devClient => devClient.key) =
      e.dev.clients.map (fun devClient => devClient.key) := by
    have projected := congrArg (List.map (fun view : Nat × Bool × Nat => view.1)) views
    rw [List.map_map, List.map_map] at projected
    exact projected
  refine ⟨?_, ?_, ?_, ?_, ?_, ?_⟩
  · rw [keyViews]
    exact balances.keys
  · intro devClient member
    rcases back devClient member with ⟨old, oldMember, view⟩
    simp only [balanceView, Prod.mk.injEq] at view
    rw [← view.1]
    exact Nat.lt_of_lt_of_le (balances.fresh old oldMember) same.fresh
  · intro key unused
    rw [same.sent]
    exact balances.unused key (Nat.le_trans same.fresh unused)
  · intro devClient member
    rcases back devClient member with ⟨old, oldMember, view⟩
    simp only [balanceView, Prod.mk.injEq] at view
    rw [same.flow, ← view.1, ← view.2.1]
    exact balances.flow old oldMember
  · intro devClient member flow
    rcases back devClient member with ⟨old, oldMember, view⟩
    simp only [balanceView, Prod.mk.injEq] at view
    rw [same.sent, same.granted, ← view.1, ← view.2.2]
    exact balances.balance old oldMember (view.2.1.trans flow)
  · intro key flow
    rw [same.flow] at flow
    rw [same.sent, same.granted]
    exact balances.bounded key flow

variable {devClient : SpiceCharDeviceClientState Msg}

/-- One client's balance changes, together with what was sent to it or granted by it. -/
theorem change (balances : Balances e) {key : Nat}
    (found : e.dev.clientAt key = some devClient)
    (change : SpiceCharDeviceClientState Msg -> SpiceCharDeviceClientState Msg)
    (clients : next.dev.clients = (e.dev.setClient key change).clients) (keepsKey : forall c, (change c).key = c.key)
    (keepsFlow : forall c, (change c).doFlowControl = c.doFlowControl) (fresh : next.fresh = e.fresh)
    (flow : forall other, flowControlled other next.trace = flowControlled other e.trace)
    (others : forall other, other ≠ key -> sentCount other next.trace = sentCount other e.trace ∧
      grantedTokens other next.trace = grantedTokens other e.trace) (mine : devClient.doFlowControl = true ->
      sentCount key next.trace + (change devClient).numSendTokens ≤ grantedTokens key next.trace) : Balances next := by
  have member := List.mem_of_find?_eq_some found
  have here : devClient.key = key := by simpa using List.find?_some found
  have form : forall c, c ∈ next.dev.clients -> Exists fun old => old ∈ e.dev.clients ∧
      c = if old.key = key then change old else old := by
    intro c inside
    rw [clients] at inside
    rcases List.mem_map.mp inside with ⟨old, oldMember, same⟩
    exact ⟨old, oldMember, same.symm⟩
  have keyOf : forall old : SpiceCharDeviceClientState Msg,
      (if old.key = key then change old else old).key = old.key := by
    intro old
    split
    · exact keepsKey old
    · rfl
  have flowOf : forall old : SpiceCharDeviceClientState Msg,
      (if old.key = key then change old else old).doFlowControl = old.doFlowControl := by
    intro old
    split
    · exact keepsFlow old
    · rfl
  have keyViews : next.dev.clients.map (fun c => c.key) = e.dev.clients.map (fun c => c.key) := by
    rw [clients, SpiceCharDeviceState.setClient, List.map_map]
    apply List.map_congr_left
    intro c _
    exact keyOf c
  refine ⟨?_, ?_, ?_, ?_, ?_, ?_⟩
  · rw [keyViews]
    exact balances.keys
  · intro c inside
    rcases form c inside with ⟨old, oldMember, same⟩
    rw [same, keyOf, fresh]
    exact balances.fresh old oldMember
  · intro other unused
    rw [fresh] at unused
    have below := balances.fresh devClient member
    rw [(others other (by omega)).1]
    exact balances.unused other unused
  · intro c inside
    rcases form c inside with ⟨old, oldMember, same⟩
    rw [same, keyOf, flowOf, flow]
    exact balances.flow old oldMember
  · intro c inside flowing
    rcases form c inside with ⟨old, oldMember, same⟩
    rw [same, flowOf] at flowing
    by_cases mineKey : old.key = key
    · have equal := List.inj_on_of_nodup_map balances.keys oldMember member (mineKey.trans here.symm)
      subst equal
      rw [same, keyOf, if_pos mineKey, mineKey]
      exact mine flowing
    · rw [if_neg mineKey] at same
      rw [same, (others old.key mineKey).1, (others old.key mineKey).2]
      exact balances.balance old oldMember flowing
  · intro other flowing
    rw [flow] at flowing
    by_cases mineKey : other = key
    · subst mineKey
      have known := balances.flow devClient member
      rw [here, flowing] at known
      have bound := mine known.symm
      omega
    · rw [(others other mineKey).1, (others other mineKey).2]
      exact balances.bounded other flowing

/-- A message that is sent costs a token. -/
theorem spend (balances : Balances e) {key : Nat}
    (found : e.dev.clientAt key = some devClient) (can : canSendToClient devClient = true)
    (change : SpiceCharDeviceClientState Msg -> SpiceCharDeviceClientState Msg)
    (clients : next.dev.clients = (e.dev.setClient key change).clients) (keepsKey : forall c, (change c).key = c.key)
    (keepsFlow : forall c, (change c).doFlowControl = c.doFlowControl)
    (spends : (change devClient).numSendTokens = dec64 devClient.numSendTokens)
    (fresh : next.fresh = e.fresh) {msg : Msg}
    (trace : next.trace = .sent key msg :: e.trace ∨ next.trace = e.trace) : Balances next := by
  have member := List.mem_of_find?_eq_some found
  have here : devClient.key = key := by simpa using List.find?_some found
  refine balances.change found change clients keepsKey keepsFlow fresh ?_ ?_ ?_
  · intro other
    rcases trace with sent | same
    · rw [sent]
      rfl
    · rw [same]
  · intro other different
    rcases trace with sent | same
    · rw [sent]
      simp only [sentCount, grantedTokens, if_neg (fun equal => different (Eq.symm equal)), and_self]
    · rw [same]
      exact ⟨rfl, rfl⟩
  · intro flow
    have positive : devClient.numSendTokens ≠ 0 := by
      unfold canSendToClient at can
      simpa [flow] using can
    have before := balances.balance devClient member flow
    rw [here] at before
    rw [spends, dec64_of_ne positive]
    rcases trace with sent | same
    · rw [sent]
      simp only [sentCount, grantedTokens, if_true]
      omega
    · rw [same]
      omega

theorem readFromDevice (balances : Balances e) : Balances e.readFromDevice := by
  unfold Exec.readFromDevice
  split
  · exact balances.unspent ⟨rfl, Nat.le_refl _, fun _ => rfl, fun _ => rfl, fun _ => rfl⟩
  · split <;> exact balances.unspent ⟨rfl, Nat.le_refl _, fun _ => rfl, fun _ => rfl, fun _ => rfl⟩

theorem readEnd (balances : Balances e) (didRead : Bool) : Balances (e.readEnd didRead) := by
  unfold Exec.readEnd
  split <;> exact balances.unspent ⟨rfl, Nat.le_refl _, fun _ => rfl, fun _ => rfl, fun _ => rfl⟩

theorem readRound (balances : Balances e) (maxSendTokens : Nat) (didRead : Bool) :
    Balances (e.readRound maxSendTokens didRead) := by
  unfold Exec.readRound
  split
  · exact balances.unspent ⟨rfl, Nat.le_refl _, fun _ => rfl, fun _ => rfl, fun _ => rfl⟩
  · exact balances.readEnd didRead

theorem readOne (balances : Balances e) (msg : Option Msg) (maxSendTokens : Nat) (didRead : Bool) :
    Balances (e.readOne msg maxSendTokens didRead) := by
  unfold Exec.readOne
  split
  · split
    · exact balances.unspent ⟨rfl, Nat.le_refl _, fun _ => rfl, fun _ => rfl, fun _ => rfl⟩
    · exact balances.readEnd didRead
  · exact balances.unspent ⟨rfl, Nat.le_refl _, fun _ => rfl, fun _ => rfl, fun _ => rfl⟩

/-- The tokens of a client are set anew. -/
theorem thenSet (balances : Balances e) (key : Nat)
    (change : SpiceCharDeviceClientState Msg -> SpiceCharDeviceClientState Msg)
    (clients : next.dev.clients = (e.dev.setClient key change).clients)
    (keeps : forall c, balanceView (change c) = balanceView c) (fresh : next.fresh = e.fresh)
    (trace : next.trace = e.trace) : Balances next := by
  refine balances.unspent ⟨?_, Nat.le_of_eq fresh.symm, ?_, ?_, ?_⟩
  · rw [clients]
    simp only [SpiceCharDeviceState.setClient, List.map_map]
    apply List.map_congr_left
    intro c _
    simp only [Function.comp]
    split
    · exact keeps c
    · rfl
  · rw [trace]
    exact fun _ => rfl
  · rw [trace]
    exact fun _ => rfl
  · rw [trace]
    exact fun _ => rfl

/-- A message is sent to the next client, or queued for it. -/
theorem sendRound (balances : Balances e) {msg : Msg} {item : Option Nat}
    (done : e.sendRound msg item = some next) : Balances next := by
  cases item with
  | none =>
      cases done
      exact balances.unspent ⟨rfl, Nat.le_refl _, fun _ => rfl, fun _ => rfl, fun _ => rfl⟩
  | some key =>
      simp only [Exec.sendRound] at done
      split at done
      · cases done
      · next devClient found =>
          split at done
          · next can =>
              split at done
              · cases done
                exact balances.spend found can spendSendToken rfl (fun _ => rfl) (fun _ => rfl) rfl rfl (Or.inl rfl)
              · cases done
                exact balances.spend found can spendSendToken rfl (fun _ => rfl) (fun _ => rfl) rfl rfl
                  (Or.inr rfl : _ = Obs.sent key msg :: _ ∨ _)
          · split at done
            · cases done
              exact balances.unspent ⟨rfl, Nat.le_refl _, fun _ => rfl, fun _ => rfl, fun _ => rfl⟩
            · cases done
              exact balances.thenSet key _ rfl (fun _ => rfl) rfl rfl

/-- A queued message is sent. -/
theorem pushRound (balances : Balances e) {key : Nat} (done : e.pushRound key = some next) : Balances next := by
  unfold Exec.pushRound at done
  split at done
  · cases done
  · next devClient found =>
      split at done
      · cases done
        exact balances.unspent ⟨rfl, Nat.le_refl _, fun _ => rfl, fun _ => rfl, fun _ => rfl⟩
      · next msg rest queued =>
          split at done
          · next can =>
              cases done
              exact balances.spend found can (fun c => spendSendToken { c with sendQueue := rest }) rfl
                (fun _ => rfl) (fun _ => rfl) rfl rfl (Or.inl rfl)
          · cases done
            exact balances.unspent ⟨rfl, Nat.le_refl _, fun _ => rfl, fun _ => rfl, fun _ => rfl⟩

theorem pushNext (balances : Balances e) {key : Nat} (done : e.pushNext key = some next) : Balances next := by
  unfold Exec.pushNext at done
  split at done
  · cases done
  · cases done
    exact balances.thenSet key _ rfl (fun _ => rfl) rfl rfl

theorem absorbRest (balances : Balances e) {key : Nat} (done : e.absorbRest key = some next) : Balances next := by
  unfold Exec.absorbRest at done
  split at done
  · cases done
  · split at done
    · cases done
      apply readFromDevice
      exact balances.thenSet key _ rfl (fun _ => rfl) rfl rfl
    · split at done
      · cases done
        exact balances.thenSet key _ rfl (fun _ => rfl) rfl rfl
      · cases done
        exact balances.unspent ⟨rfl, Nat.le_refl _, fun _ => rfl, fun _ => rfl, fun _ => rfl⟩

theorem tokensAbsorb_frame (e : Exec Msg) (devClient : SpiceCharDeviceClientState Msg) (tokens : Nat) :
    (e.tokensAbsorb devClient tokens).dev.clients = (e.dev.setClient devClient.key (fun c =>
      { c with numSendTokens := add64 devClient.numSendTokens tokens })).clients ∧
    (e.tokensAbsorb devClient tokens).fresh = e.fresh ∧ (e.tokensAbsorb devClient tokens).trace = e.trace := by
  unfold Exec.tokensAbsorb
  simp only
  split
  · exact ⟨rfl, rfl, rfl⟩
  · split <;> exact ⟨rfl, rfl, rfl⟩

/-- Granted tokens are added. -/
theorem tokensAdd (balances : Balances e)
    (member : devClient ∈ e.dev.clients) (tokens : Nat) :
    Balances ((e.observe (.granted devClient.key tokens)).tokensAbsorb devClient tokens) := by
  rcases tokensAbsorb_frame (e.observe (.granted devClient.key tokens)) devClient tokens with
    ⟨clients, fresh, trace⟩
  refine balances.change (SpiceCharDeviceState.clientAt_of_mem balances.keys member) _ clients (fun _ => rfl)
    (fun _ => rfl) fresh ?_ ?_ ?_
  · rw [trace]
    exact fun _ => rfl
  · intro other different
    rw [trace]
    refine ⟨rfl, ?_⟩
    show (if devClient.key = other then _ else _) = _
    rw [if_neg (fun equal => different (Eq.symm equal))]
  · intro flow
    have before := balances.balance devClient member flow
    have sum := add64_le devClient.numSendTokens tokens
    rw [trace]
    show sentCount devClient.key e.trace + add64 devClient.numSendTokens tokens ≤
      if devClient.key = devClient.key then grantedTokens devClient.key e.trace + tokens else _
    rw [if_pos rfl]
    omega

/-- The tokens are set. -/
theorem tokensSet (balances : Balances e)
    (member : devClient ∈ e.dev.clients) (tokens : Nat) :
    Balances ((e.observe (.set devClient.key tokens)).tokensAbsorb { devClient with numSendTokens := 0 } tokens) := by
  rcases tokensAbsorb_frame (e.observe (.set devClient.key tokens)) { devClient with numSendTokens := 0 } tokens
    with ⟨clients, fresh, trace⟩
  refine balances.change (SpiceCharDeviceState.clientAt_of_mem balances.keys member) _ clients (fun _ => rfl)
    (fun _ => rfl) fresh ?_ ?_ ?_
  · rw [trace]
    exact fun _ => rfl
  · intro other different
    rw [trace]
    refine ⟨rfl, ?_⟩
    show (if devClient.key = other then _ else _) = _
    rw [if_neg (fun equal => different (Eq.symm equal))]
  · intro _
    have sum := add64_le 0 tokens
    rw [trace]
    show sentCount devClient.key e.trace + add64 0 tokens ≤
      if devClient.key = devClient.key then sentCount devClient.key e.trace + tokens else _
    rw [if_pos rfl]
    omega

/-- A client goes with its balance. -/
theorem unlink (balances : Balances e) (devClient : SpiceCharDeviceClientState Msg)
    (clients : next.dev.clients = e.dev.clients.filter (fun other => other.key ≠ devClient.key))
    (fresh : next.fresh = e.fresh) (trace : next.trace = e.trace) : Balances next := by
  have old : forall c, c ∈ next.dev.clients -> c ∈ e.dev.clients := by
    intro c member
    rw [clients] at member
    exact (List.mem_filter.mp member).1
  refine ⟨?_, ?_, ?_, ?_, ?_, ?_⟩
  · rw [clients]
    exact List.Sublist.nodup (List.Sublist.map _ List.filter_sublist) balances.keys
  · intro c member
    rw [fresh]
    exact balances.fresh c (old c member)
  · intro key unused
    rw [fresh] at unused
    rw [trace]
    exact balances.unused key unused
  · intro c member
    rw [trace]
    exact balances.flow c (old c member)
  · intro c member flow
    rw [trace]
    exact balances.balance c (old c member) flow
  · intro key flow
    rw [trace] at flow ⊢
    exact balances.bounded key flow

/-- A queued message is given up; a reset that meets the condition has none. -/
theorem queueFreeRound (balances : Balances e) {key : Nat} {caller : QueueFreeCaller}
    (emptied : caller = .reset -> forall devClient, e.dev.clientAt key = some devClient ->
      devClient.doFlowControl = true -> devClient.sendQueueSize = 0)
    (done : e.queueFreeRound key caller = some next) : Balances next := by
  unfold Exec.queueFreeRound at done
  split at done
  · cases done
  · next devClient found =>
      split at done
      · cases done
        exact balances.thenSet key _ rfl (fun _ => rfl) rfl rfl
      · cases caller with
        | reset =>
            cases done
            refine balances.change found _ rfl (fun _ => rfl) (fun _ => rfl) rfl (fun _ => rfl)
              (fun _ _ => ⟨rfl, rfl⟩) (fun flow => ?_)
            have before := balances.balance devClient (List.mem_of_find?_eq_some found) flow
            have here : devClient.key = key := by simpa using List.find?_some found
            have sum := add64_le devClient.numSendTokens devClient.sendQueueSize
            rw [emptied rfl devClient found flow] at sum
            rw [here] at before
            show sentCount key e.trace + add64 devClient.numSendTokens devClient.sendQueueSize ≤
              grantedTokens key e.trace
            rw [emptied rfl devClient found flow]
            omega
        | remove =>
            cases done
            -- the balance of the leaving client does not matter any more
            have here : devClient.key = key := by simpa using List.find?_some found
            refine balances.unlink devClient ?_ rfl rfl
            subst here
            exact SpiceCharDeviceState.clientUnlink_setClient e.dev devClient _ (fun _ => rfl)

/-- A new client has granted its initial tokens and was sent nothing. -/
theorem clientAdd (balances : Balances e) (client : Nat) (flow : Bool) (maxQueue clientTokens sendTokens : Nat)
    (wait : Bool) :
    Balances (e.clientAdd client flow maxQueue clientTokens sendTokens wait) := by
  unfold Exec.clientAdd
  split
  · exact balances.unspent ⟨rfl, Nat.le_refl _, fun _ => rfl, fun _ => rfl, fun _ => rfl⟩
  · refine Balances.unspent ?_ (SendSame.writeToDevice _).unspent
    have older : forall key, key < e.fresh -> Not (e.fresh = key) := by
      intro key below
      omega
    have nothing := balances.unused e.fresh (Nat.le_refl _)
    refine ⟨?_, ?_, ?_, ?_, ?_, ?_⟩
    · refine List.nodup_cons.mpr ⟨fun member => ?_, balances.keys⟩
      rcases List.mem_map.mp member with ⟨c, cMember, same⟩
      exact Nat.lt_irrefl _ (same ▸ balances.fresh c cMember)
    · intro c member
      show c.key < e.fresh + 1
      rcases List.mem_cons.mp member with same | old
      · rw [same]
        exact Nat.lt_succ_self _
      · exact Nat.lt_succ_of_lt (balances.fresh c old)
    · intro key unused
      exact balances.unused key (Nat.le_of_succ_le unused)
    · intro c member
      show (if e.fresh = c.key then flow else flowControlled c.key e.trace) = c.doFlowControl
      rcases List.mem_cons.mp member with same | old
      · rw [same, if_pos rfl]
      · rw [if_neg (older _ (balances.fresh c old))]
        exact balances.flow c old
    · intro c member flowing
      show sentCount c.key e.trace + c.numSendTokens ≤
        if e.fresh = c.key then _ else grantedTokens c.key e.trace
      rcases List.mem_cons.mp member with same | old
      · rw [same, if_pos rfl]
        simp only [nothing]
        omega
      · rw [if_neg (older _ (balances.fresh c old))]
        exact balances.balance c old flowing
    · intro key flowing
      change (if e.fresh = key then flow else flowControlled key e.trace) = true at flowing
      show sentCount key e.trace ≤ if e.fresh = key then _ else grantedTokens key e.trace
      by_cases new : e.fresh = key
      · rw [← new, nothing]
        exact Nat.zero_le _
      · rw [if_neg new] at flowing ⊢
        exact balances.bounded key flowing

/-- A call from outside keeps the balances. -/
theorem callStep (balances : Balances e) {call : Call} (done : e.callStep call = some next) : Balances next := by
  cases call with
  | clientAdd client flow maxQueue clientTokens sendTokens wait =>
      cases done
      exact balances.clientAdd client flow maxQueue clientTokens sendTokens wait
  | clientRemove client =>
      simp only [Exec.callStep] at done
      split at done <;> cases done <;>
        exact balances.unspent ⟨rfl, Nat.le_refl _, fun _ => rfl, fun _ => rfl, fun _ => rfl⟩
  | sendToClientTokensAdd client tokens =>
      simp only [Exec.callStep] at done
      split at done
      · cases done
        exact balances.unspent ⟨rfl, Nat.le_refl _, fun _ => rfl, fun _ => rfl, fun _ => rfl⟩
      · next devClient found =>
          cases done
          exact balances.tokensAdd (List.mem_of_find?_eq_some found) _
  | sendToClientTokensSet client tokens =>
      simp only [Exec.callStep] at done
      split at done
      · cases done
        exact balances.unspent ⟨rfl, Nat.le_refl _, fun _ => rfl, fun _ => rfl, fun _ => rfl⟩
      · next devClient found =>
          cases done
          exact balances.tokensSet (List.mem_of_find?_eq_some found) _
  | writeBufferGet client size =>
      cases client with
      | some client =>
          cases done
          exact balances.unspent (SendSame.writeBufferGet e client size .client).unspent
      | none =>
          cases done
          exact balances.unspent (SendSame.writeBufferGet e 0 size .server).unspent
  | writeBufferGetServerNoToken size =>
      cases done
      exact balances.unspent (SendSame.writeBufferGet e 0 size .serverNoToken).unspent
  | writeBufferAdd key =>
      simp only [Exec.callStep] at done
      split at done
      · cases done
      · cases done
        refine Balances.unspent ?_ (SendSame.writeBufferAdd _ _).unspent
        exact balances.unspent ⟨rfl, Nat.le_refl _, fun _ => rfl, fun _ => rfl, fun _ => rfl⟩
  | writeBufferRelease key =>
      simp only [Exec.callStep] at done
      split at done
      · cases done
      · cases done
        refine Balances.unspent ?_ (SendSame.writeBufferRelease _ _).unspent
        exact balances.unspent ⟨rfl, Nat.le_refl _, fun _ => rfl, fun _ => rfl, fun _ => rfl⟩
  | writeRetry =>
      cases done
      exact balances.unspent (SendSame.writeToDevice e).unspent
  | waitForTokensTimeout key =>
      simp only [Exec.callStep] at done
      split at done
      · cases done
      · cases done
        exact balances.unspent ⟨rfl, Nat.le_refl _, fun _ => rfl, fun _ => rfl, fun _ => rfl⟩
  | start =>
      cases done
      refine Balances.unspent ?_ (SendSame.writeToDevice _).unspent
      exact balances.unspent ⟨rfl, Nat.le_refl _, fun _ => rfl, fun _ => rfl, fun _ => rfl⟩
  | stop =>
      cases done
      exact balances.unspent ⟨rfl, Nat.le_refl _, fun _ => rfl, fun _ => rfl, fun _ => rfl⟩
  | reset =>
      cases done
      exact balances.unspent ⟨rfl, Nat.le_refl _, fun _ => rfl, fun _ => rfl, fun _ => rfl⟩
  | resetDevInstance =>
      cases done
      exact balances.unspent ⟨rfl, Nat.le_refl _, fun _ => rfl, fun _ => rfl, fun _ => rfl⟩
  | wakeup =>
      cases done
      refine Balances.unspent ?_ (SendSame.writeToDevice _).unspent
      exact balances.unspent ⟨rfl, Nat.le_refl _, fun _ => rfl, fun _ => rfl, fun _ => rfl⟩

/-- Going on with what is in progress keeps the balances. -/
theorem tickStep (balances : Balances e) (resets : resetsEmptyQueues e .tick = true)
    (done : e.tickStep = some next) : Balances next := by
  unfold Exec.tickStep at done
  split at done
  · cases done
  · next frame rest stack =>
      cases frame with
      | writeLoop total =>
          cases done
          exact balances.unspent (SendSame.writeRound stack).unspent
      | writeCall writeLen total => cases done
      | sendTokens =>
          cases done
          exact balances.unspent ⟨rfl, Nat.le_refl _, fun _ => rfl, fun _ => rfl, fun _ => rfl⟩
      | freeSelfToken =>
          cases done
          exact balances.unspent ⟨rfl, Nat.le_refl _, fun _ => rfl, fun _ => rfl, fun _ => rfl⟩
      | sendCall =>
          cases done
          exact balances.unspent ⟨rfl, Nat.le_refl _, fun _ => rfl, fun _ => rfl, fun _ => rfl⟩
      | overflowCall =>
          cases done
          exact balances.unspent ⟨rfl, Nat.le_refl _, fun _ => rfl, fun _ => rfl, fun _ => rfl⟩
      | freeUnref =>
          cases done
          exact balances.unspent ⟨rfl, Nat.le_refl _, fun _ => rfl, fun _ => rfl, fun _ => rfl⟩
      | readLoop maxSendTokens didRead =>
          cases done
          exact balances.readRound maxSendTokens didRead
      | readCall maxSendTokens didRead => cases done
      | readUnref maxSendTokens =>
          cases done
          exact balances.unspent ⟨rfl, Nat.le_refl _, fun _ => rfl, fun _ => rfl, fun _ => rfl⟩
      | sendLoop msg item => exact balances.sendRound done
      | pushLoop key => exact balances.pushRound done
      | pushUnref key => exact balances.pushNext done
      | absorbEnd key => exact balances.absorbRest done
      | resetQueue =>
          cases done
          exact balances.unspent (SendSame.resetQueueRound stack).unspent
      | resetCur =>
          cases done
          exact balances.unspent (SendSame.resetCurRound stack).unspent
      | resetFirst =>
          cases done
          exact balances.unspent ⟨rfl, Nat.le_refl _, fun _ => rfl, fun _ => rfl, fun _ => rfl⟩
      | resetClients item =>
          cases item with
          | none =>
              cases done
              exact balances.unspent ⟨rfl, Nat.le_refl _, fun _ => rfl, fun _ => rfl, fun _ => rfl⟩
          | some key =>
              cases done
              exact balances.unspent ⟨rfl, Nat.le_refl _, fun _ => rfl, fun _ => rfl, fun _ => rfl⟩
      | queueFree key caller =>
          refine balances.queueFreeRound (fun reset devClient found flow => ?_) done
          subst reset
          simpa [resetsEmptyQueues, stack, found, flow] using resets
      | clientRemoved =>
          simp only at done
          split at done
          · split at done
            · cases done
              exact balances.unspent ⟨rfl, Nat.le_refl _, fun _ => rfl, fun _ => rfl, fun _ => rfl⟩
            · cases done
              apply readFromDevice
              exact balances.unspent ⟨rfl, Nat.le_refl _, fun _ => rfl, fun _ => rfl, fun _ => rfl⟩
          · cases done
            exact balances.unspent ⟨rfl, Nat.le_refl _, fun _ => rfl, fun _ => rfl, fun _ => rfl⟩
      | wakeupRead =>
          cases done
          apply readFromDevice
          exact balances.unspent ⟨rfl, Nat.le_refl _, fun _ => rfl, fun _ => rfl, fun _ => rfl⟩
      | startRead =>
          simp only at done
          split at done
          · cases done
            exact balances.unspent (SendSame.writeToDevice e).unspent
          · cases done
            apply readFromDevice
            exact balances.unspent ⟨rfl, Nat.le_refl _, fun _ => rfl, fun _ => rfl, fun _ => rfl⟩
      | startCheck =>
          simp only at done
          split at done
          · cases done
            refine Balances.unspent ?_ (SendSame.writeToDevice _).unspent
            exact balances.unspent ⟨rfl, Nat.le_refl _, fun _ => rfl, fun _ => rfl, fun _ => rfl⟩
          · cases done
            exact balances.unspent ⟨rfl, Nat.le_refl _, fun _ => rfl, fun _ => rfl, fun _ => rfl⟩
      | getError buf =>
          cases done
          exact balances.unspent ⟨rfl, Nat.le_refl _, fun _ => rfl, fun _ => rfl, fun _ => rfl⟩

/-- Every event does, when resets find empty queues. -/
theorem step (balances : Balances e) {event : Event Msg} (resets : resetsEmptyQueues e event = true)
    (done : e.step event = some next) : Balances next := by
  unfold Exec.step at done
  split at done
  · cases done
  · split at done
    · split at done
      · exact balances.callStep done
      · cases done
    · split at done
      · cases done
        exact balances.unspent ⟨rfl, Nat.le_refl _, fun _ => rfl, fun _ => rfl, fun _ => rfl⟩
      · cases done
    · split at done
      · next top =>
          exact balances.unspent (SendSame.wrote top done).unspent
      · cases done
    · split at done
      · cases done
        exact balances.readOne _ _ _
      · cases done
    · exact balances.tickStep resets done

theorem create (clientTokensInterval selfTokens : Nat) :
    Balances (stateCreate Msg clientTokensInterval selfTokens) where
  keys := List.nodup_nil
  fresh := by intro devClient member; cases member
  unused := fun _ _ => rfl
  flow := by intro devClient member; cases member
  balance := by intro devClient member; cases member
  bounded := by intro key flow; cases flow

end Balances

/-- In every run whose resets find the queues of flow-controlled clients
empty, no such client is ever sent more messages than it granted tokens. -/
theorem sent_within_grants (clientTokensInterval selfTokens : Nat) (events : List (Event Msg))
    (resets : Meets Exec.step (fun _ e event => resetsEmptyQueues e event = true) []
      (stateCreate Msg clientTokensInterval selfTokens) events)
    (e : Exec Msg) (ran : run Exec.step (stateCreate Msg clientTokensInterval selfTokens) events = some e) :
    SentWithinGrants e := by
  have keep : forall (past : List (Event Msg)) (state : Exec Msg) event next, Balances state ->
      resetsEmptyQueues state event = true -> state.step event = some next -> Balances next :=
    fun _ _ _ _ balances met done => balances.step met done
  exact (run_invariant_of_meets keep events [] _ e (Balances.create _ _) resets ran).bounded

/-- Two clients share the device; the second has no tokens.  A message is
queued for it, a reset frees the queue, and the next message is sent to it. -/
def resetWithQueue : List (Event Nat) :=
  [.call (.clientAdd 1 true 10 5 1 false), .tick, .call (.clientAdd 2 true 10 5 0 false), .tick,
    .call .start, .tick, .tick, .tick, .readOne (some 5), .tick, .tick, .tick, .tick, .tick, .tick,
    .tick, .tick, .tick, .tick, .tick,
    .call .reset, .tick, .tick, .tick, .tick, .tick, .tick, .tick, .tick, .tick, .tick,
    .call .resetDevInstance, .call .start, .tick, .tick, .tick, .readOne (some 6), .tick]

/-- The second client granted nothing and was sent a message. -/
theorem sent_beyond_grants_after_reset :
    Not (forall (clientTokensInterval selfTokens : Nat) (events : List (Event Nat)) (e : Exec Nat),
      run Exec.step (stateCreate Nat clientTokensInterval selfTokens) events = some e -> SentWithinGrants e) := by
  intro claim
  have final : (run Exec.step (stateCreate Nat 1 1) resetWithQueue).map
      (fun e => (flowControlled 2 e.trace, sentCount 2 e.trace, grantedTokens 2 e.trace)) =
      some (true, 1, 0) := by decide
  rcases Option.map_eq_some_iff.mp final with ⟨e, ran, counts⟩
  simp only [Prod.mk.injEq] at counts
  have bound := claim 1 1 resetWithQueue e ran 2 counts.1
  omega

/-- A client is sent a message, and the device is reset from inside the send. -/
def resetWithoutQueue : List (Event Nat) :=
  [.call (.clientAdd 1 true 10 5 2 false), .tick, .call .start, .tick, .tick, .tick, .readOne (some 5), .tick,
    .call .reset, .tick, .tick, .tick, .tick, .tick, .tick, .call .resetDevInstance, .tick, .tick]

theorem sent_within_grants_after_reset :
    Exists fun e => run Exec.step (stateCreate Nat 1 1) resetWithoutQueue = some e ∧
      sentCount 1 e.trace = 1 ∧ SentWithinGrants e := by
  have final : (run Exec.step (stateCreate Nat 1 1) resetWithoutQueue).map
      (fun e => sentCount 1 e.trace) = some 1 := by decide
  rcases Option.map_eq_some_iff.mp final with ⟨e, ran, count⟩
  have met : checkRun Exec.step resetsEmptyQueues (stateCreate Nat 1 1) resetWithoutQueue = true := by decide
  exact ⟨e, ran, count, sent_within_grants 1 1 resetWithoutQueue
    (Meets.of_check (fun _ _ _ checked => checked) _ _ _ met) e ran⟩

end CharDevice
end Spice
