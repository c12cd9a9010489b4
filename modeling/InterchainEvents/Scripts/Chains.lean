import InterchainEvents.Async.World
import InterchainEvents.Contracts.Delivery
import InterchainEvents.Registry.Condition
import InterchainEvents.Scripts.Flow
import InterchainEvents.Watcher.Chains

/-!
# The script between two chains

The world of the script are a remote chain with the attestation registry, and the hub with its two
contracts. On both of them anyone may make transactions at any time. What the registry has stored is
in the store `wasm` of the remote chain, of which a node shows it with proofs.
-/

namespace Scripts.Flow

open Shared Async
open Watcher.Tasks (Failure)

/-! ### The remote chain -/

/-- A remote chain, as it will have been: the transactions of each block that may call the registry,
its state and the hash of the application after each height, and when the block of each height is
made. -/
structure Remote extends Watcher.Tasks.Remote where
  blocks : ℕ → List Registry.Tx

namespace Remote

variable (remote : Remote)

/-- The transactions before the block of a height. -/
def before (height : ℕ) : List Registry.Tx :=
  (List.range height).flatMap remote.blocks

/-- What the registry has stored after a height. -/
def registry (height : ℕ) : Registry.Storage :=
  Registry.committed (remote.before (height + 1))

/-- What is attested in the block of a height, and under which identifiers. -/
def attestedIn (height : ℕ) : List (String × Registry.Attestation) :=
  (Registry.contract.history (remote.blocks height)
    (Registry.committed (remote.before height))).2.filterMap Registry.attested

/-- The blocks are made in their order, each at most 18 seconds after the one before, and what the
registry has stored is in the store `wasm`. -/
structure Sound (esc : Char → List Char) : Prop where
  forward : ∀ height, remote.madeAt height ≤ remote.madeAt (height + 1)
  steady : remote.Steady
  stores : ∀ height (id : String), remote.state height "wasm" (buildAttestationIavlKey id.toList)
    = (remote.registry height).raw esc id

/-- From a time on, whatever is attested under an identifier is that it is approved. -/
def StaysApproved (id : String) (since : ℕ) : Prop :=
  ∀ height, since < remote.madeAt height → ∀ e ∈ remote.attestedIn height,
    e.1 = id → e.2.status = "approved"

/-- After the height, what is stored under the identifier is that it is approved. -/
def Approved (id : String) (height : ℕ) : Prop :=
  ∃ a, (remote.registry height).load id = some a ∧ a.status = "approved"

variable {remote}

theorem before_succ (height : ℕ) :
  remote.before (height + 1) = remote.before height ++ remote.blocks height
  := by
  rw [before, List.range_succ, List.flatMap_append, List.flatMap_singleton, before]

/-- What is stored after a height is what its block has attested, or what was stored before. -/
theorem load_registry (height : ℕ) (id : String) :
  (remote.registry height).load id
    = (Registry.lastAttest (Registry.contract.history (remote.blocks height)
        (Registry.committed (remote.before height))).2 id).or
      ((Registry.committed (remote.before height)).load id)
  := by
  rw [registry, Registry.load_committed, before_succ, Registry.log_append,
    Registry.lastAttest_append, Registry.load_committed]

theorem madeAt_mono (hforward : ∀ height, remote.madeAt height ≤ remote.madeAt (height + 1))
    {height height' : ℕ} (h : height ≤ height') :
  remote.madeAt height ≤ remote.madeAt height'
  := monotone_nat_of_le_succ hforward h

/-- Approved in a block, an identifier stays so. -/
theorem StaysApproved.approved {id : String} {since : ℕ} (hstays : remote.StaysApproved id since)
    (hforward : ∀ height, remote.madeAt height ≤ remote.madeAt (height + 1)) {height : ℕ}
    (hsince : since < remote.madeAt height) {a : Registry.Attestation}
    (ha : (id, a) ∈ remote.attestedIn height) {height' : ℕ} (hle : height ≤ height') :
  remote.Approved id height'
  := by
  -- whatever a block attests under the identifier approves it
  have hblock (k : ℕ) (hk : height ≤ k) {b : Registry.Attestation}
      (hb : Registry.lastAttest (Registry.contract.history (remote.blocks k)
        (Registry.committed (remote.before k))).2 id = some b) : remote.Approved id k := by
    refine ⟨b, ?_, ?_⟩
    · rw [load_registry, hb, Option.some_or]
    · apply hstays k (hsince.trans_le (madeAt_mono hforward hk)) (id, b) _ rfl
      apply Registry.mem_attested_of_lastAttest hb
  induction height', hle using Nat.le_induction with
  | base =>
      obtain ⟨b, hb⟩ := Registry.lastAttest_of_mem_attested ha
      apply hblock height (Nat.le_refl _) hb
  | succ k hk ih =>
      cases hlast : Registry.lastAttest (Registry.contract.history (remote.blocks (k + 1))
          (Registry.committed (remote.before (k + 1)))).2 id with
      | some b => apply hblock (k + 1) (Nat.le_succ_of_le hk) hlast
      | none =>
          obtain ⟨b, hb, happroved⟩ := ih
          refine ⟨b, ?_, happroved⟩
          rw [load_registry, hlast, Option.none_or]
          apply hb

end Remote

/-! ### The hub -/

/-- What nobody else does on the hub: call in the name of the hub contract. And what it sends to the
callback contract arrives there. -/
def Routed (text : Delivery.Abort → String) (tx : Delivery.Tx) : Prop :=
  tx.script.Routed (Delivery.route interchainEventsAddress proofCallbackAddress text)
    (Delivery.Sent interchainEventsAddress)

/-- The transactions on the hub so far, and the time. -/
structure Chains (text : Delivery.Abort → String) where
  hub : List Delivery.Tx
  time : ℕ
  routed : ∀ tx ∈ hub, Routed text tx

section Hub

variable {text : Delivery.Abort → String} (lib : Hub.Libraries)

/-- Time passes, and anyone may have made transactions. -/
structure Chains.Changes (w w' : Chains text) : Prop where
  time_le : w.time ≤ w'.time
  grown : w.hub <+: w'.hub

/-- What the contracts on the hub have stored. -/
def Chains.state (w : Chains text) : Delivery.World :=
  Delivery.committed lib w.hub

/-- The messages that the hub contract has sent to the callback contract: the subscription, and the
event to be recorded. -/
def Chains.sent (w : Chains text) : List (ℕ × ProofCallback.Event) :=
  (Delivery.log lib w.hub).filterMap
    (Delivery.dispatched interchainEventsAddress proofCallbackAddress)

/-- A subscription to the callback contract that has been triggered. -/
def Chains.Triggered (w : Chains text) (id : ℕ) : Prop :=
  Delivery.TriggeredFor proofCallbackAddress (w.state lib).hub id

theorem Chains.Changes.refl (w : Chains text) :
  w.Changes w
  := ⟨Nat.le_refl _, List.prefix_refl _⟩

theorem Chains.Changes.trans {w w' w'' : Chains text} (h : w.Changes w') (h' : w'.Changes w'') :
  w.Changes w''
  := ⟨h.time_le.trans h'.time_le, h.grown.trans h'.grown⟩

variable {lib} {w w' : Chains text}

/-- The messages sent and what became of them agree. -/
theorem Chains.accounted (lib : Hub.Libraries) (w : Chains text) :
  Delivery.Accounted interchainEventsAddress proofCallbackAddress (Delivery.log lib w.hub)
    (w.state lib)
  := Delivery.accounted_committed lib w.routed

/-- What was sent stays so. -/
theorem Chains.Changes.sent (h : w.Changes w') :
  w.sent lib <+: w'.sent lib
  := by
  obtain ⟨txs, htxs⟩ := h.grown
  rw [Chains.sent, Chains.sent, ← htxs, Delivery.log_append, List.filterMap_append]
  apply List.prefix_append

/-- What is stored of a subscription stays so, its status apart. -/
theorem Chains.Changes.extends (lib : Hub.Libraries) (h : w.Changes w') :
  (w.state lib).hub.Extends (w'.state lib).hub
  := by
  obtain ⟨txs, htxs⟩ := h.grown
  rw [Chains.state, Chains.state, ← htxs]
  apply Delivery.extends_committed

theorem Chains.triggered_iff {id : ℕ} :
  w.Triggered lib id ↔ id ∈ (w.sent lib).map Prod.fst
  := ((w.accounted lib).mem_iff id).symm

/-- A triggered subscription stays so. -/
theorem Chains.Changes.triggered (h : w.Changes w') {id : ℕ} (hid : w.Triggered lib id) :
  w'.Triggered lib id
  := by
  rw [Chains.triggered_iff] at hid ⊢
  exact (h.sent.map Prod.fst).mem hid

/-- A triggered subscription has sent a message, and its event was recorded. -/
theorem Chains.recorded {id : ℕ} (hid : w.Triggered lib id) :
  ∃ e, (id, e) ∈ w.sent lib ∧ e ∈ (w.state lib).events
  := by
  obtain ⟨⟨_, e⟩, he, rfl⟩ := List.mem_map.mp (Chains.triggered_iff.mp hid)
  refine ⟨e, he, ?_⟩
  have hevents := (w.accounted lib).events
  have hmem : e ∈ (w.state lib).events.filter (fun e => e.caller = interchainEventsAddress) := by
    rw [hevents]
    apply List.mem_map_of_mem he
  apply List.mem_of_mem_filter hmem

/-- A transaction with a proof that triggers a subscription to the callback contract. -/
theorem state_of_submit {env : Hub.Env} {info : Hub.MessageInfo} {id : ℕ} {height : Height}
    {appHash proof key value : Binary} {callback : Platform.SubMsg Hub.Callback → Delivery.Script}
    {refusal : Delivery.Abort → String} {sub : Subscription}
    (hgrown : w'.hub = w.hub ++ [.message env
      (.hub ⟨info, .submitProof id height appHash proof key value⟩) callback refusal])
    (hload : (w.state lib).hub.load id = some sub)
    (hcallback : sub.callbackContract = proofCallbackAddress)
    (htriggers : Hub.Triggers lib env.height sub appHash proof key value) :
  ((Delivery.contract lib).send env (.hub ⟨info, .submitProof id height appHash proof key value⟩)
      callback (w.state lib)).answer = .ok () ∧
    (w'.state lib).hub = (w.state lib).hub.save id { sub with status := .triggered }
  := by
  obtain ⟨hsent, hrouted, -⟩ := w'.routed _ (by rw [hgrown]; apply List.mem_concat_self)
  have hid : id < 2 ^ 64 := ((w.accounted lib).sound.lt_nextId hload).trans (w.accounted lib).small
  have hexec : (Delivery.contract lib).execute env
        (.hub ⟨info, .submitProof id height appHash proof key value⟩) (w.state lib)
      = (.ok (some (Hub.callbackOf id height value sub)),
          ⟨(w.state lib).hub.save id { sub with status := .triggered }, (w.state lib).events⟩) := by
    rw [Delivery.execute_hub, Hub.contract_execute_of_triggers info hload htriggers]
    rfl
  obtain ⟨hanswer, hstate, -⟩ :=
    Delivery.send_of_route callback hid hsent hexec hcallback (hrouted _)
  use hanswer
  rw [Chains.state, hgrown, Delivery.committed_append]
  show ((Delivery.contract lib).transact _ (w.state lib)).state.hub = _
  rw [Platform.Contract.transact_message_of_ok hanswer, hstate]

end Hub

/-! ### Answers -/

/-- The message of the hub contract that a message is, if it can be read. -/
def messageOf : HubMsg → Option Hub.ExecuteMsg
  | .subscribe msg => do
      let watchKey ← ofBase64 msg.watchKey
      let condition ← SubscriptionCondition.ofWire msg.condition
      let callbackMsg ← ofBase64 msg.callbackMsg
      some (.subscribe msg.clientId msg.keyPath watchKey condition msg.callbackContract callbackMsg
        msg.expiresAfterBlocks)
  | .submitProof msg => do
      let subscriptionId ← msg.subscriptionId.bind Int.toNat?
      let revisionHeight ← msg.revisionHeight.bind Int.toNat?
      let appHash ← ofBase64 msg.appHash
      let proof ← ofBase64 msg.proof
      let key ← ofBase64 msg.key
      let value ← ofBase64 msg.value
      some (.submitProof subscriptionId ⟨msg.revisionNumber, revisionHeight⟩ appHash proof key
        value)

/-- A transaction shows the attributes of the answer of the contract, after others that the chain
gives. None of these has the name of the number of a subscription. -/
def Shows (result : ExecuteResult) (attributes : List (String × String)) : Prop :=
  ∃ own, result.attributes = own ++ attributes ∧ ∀ a ∈ own, a.1 ≠ "subscription_id"

section World

variable (lib : Hub.Libraries) (remote : Remote) {text : Delivery.Abort → String}

/-- A height is the latest one at some time. -/
structure Remote.Latest (asked w : Chains text) (height : ℕ) : Prop where
  made : remote.madeAt height ≤ w.time
  latest : asked.time < remote.madeAt (height + 1)

/-- The answers to requests. A query is answered from a state that was the latest one at some time
since it was asked for, and a transaction of which an answer comes was made since then. Whoever is
called back in it may do anything that is routed. -/
inductive Serves :
    (req : Request) → (asked : Chains text) → Except Failure (Response req) → Chains text →
      Chains text → Prop
  | fromMnemonic {mnemonic chainName asked w} :
      Serves (.fromMnemonic mnemonic chainName) asked (.ok ()) w w
  | getAccounts {account accounts asked w} :
      Serves .getAccounts asked (.ok (account :: accounts)) w w
  | connectWithSigner {chain asked w} : Serves (.connectWithSigner chain) asked (.ok ()) w w
  | connect {chain asked w} : Serves (.connect chain) asked (.ok ()) w w
  | attested {sender id status height callback refusal result asked w} :
      asked.time < remote.madeAt height → remote.madeAt height ≤ w.time →
      .message ⟨UInt64.ofNat height⟩ ⟨⟨sender⟩, .attest id status⟩ callback refusal
        ∈ remote.blocks height →
      id ≠ "" → status ≠ "" → result.height = height →
      Serves (.attest sender (.text id) status) asked (.ok result) w w
  | attestRefused {sender id status failure asked w} : id = "" ∨ status = "" →
      Serves (.attest sender (.text id) status) asked (.error failure) w w
  | attestUnread {sender status failure asked w} :
      Serves (.attest sender .present status) asked (.error failure) w w
  | executed {sender msg message env callback refusal response result asked w w'} :
      messageOf msg = some message →
      w'.hub = w.hub ++ [.message env (.hub ⟨⟨sender⟩, message⟩) callback refusal] →
      w'.time = w.time →
      ((Delivery.contract lib).send env (.hub ⟨⟨sender⟩, message⟩) callback (w.state lib)).answer
        = .ok () →
      ((Hub.execute lib env ⟨sender⟩ message).runFrom (w.state lib).hub).1 = .ok response →
      Shows result response.attributes →
      Serves (.execute sender msg) asked (.ok result) w w'
  | executeRefused {sender msg message env callback refusal error failure asked w w'} :
      messageOf msg = some message →
      w'.hub = w.hub ++ [.message env (.hub ⟨⟨sender⟩, message⟩) callback refusal] →
      w'.time = w.time →
      ((Delivery.contract lib).send env (.hub ⟨⟨sender⟩, message⟩) callback (w.state lib)).answer
        = .error error →
      Serves (.execute sender msg) asked (.error failure) w w'
  | executeUnread {sender msg failure asked w} : messageOf msg = none →
      Serves (.execute sender msg) asked (.error failure) w w
  | attestation {id height answer asked w} : remote.Latest asked w height →
      Registry.queryAttestation (remote.registry height) id = some answer →
      Serves (.getAttestation (.text id)) asked (.ok answer) w w
  | noAttestation {id height failure asked w} : remote.Latest asked w height →
      Registry.queryAttestation (remote.registry height) id = none →
      Serves (.getAttestation (.text id)) asked (.error failure) w w
  | attestationUnread {failure asked w} :
      Serves (.getAttestation .present) asked (.error failure) w w
  | subscription {id sub asked w} :
      (id.bind Int.toNat?).bind (w.state lib).hub.load = some sub →
      Serves (.getSubscription id) asked (.ok sub) w w
  | noSubscription {id failure asked w} :
      (id.bind Int.toNat?).bind (w.state lib).hub.load = none →
      Serves (.getSubscription id) asked (.error failure) w w
  | events {asked w} : Serves .getEvents asked (.ok (w.state lib).events) w w
  | query {path data node height code log asked w} : remote.Latest asked w height →
      Watcher.Honest lib node (remote.state height) height (remote.appHash height) →
      code = none ∨ code = some 0 →
      Serves (.abciQuery path data none) asked (.ok ⟨node.abciQuery path data, code, log⟩) w w
  | block {height hash asked w} : remote.madeAt (height + 1) ≤ w.time → hash ≠ "" →
      Hex.decode? hash.toList = some (remote.appHash height) →
      Serves (.block (some (height + 1))) asked (.ok (some hash)) w w
  | noBlock {height asked w} : asked.time < remote.madeAt height →
      Serves (.block (some height)) asked (.ok none) w w
  | noHeight {height asked w} : height.bind Int.toNat? = none →
      Serves (.block height) asked (.ok none) w w
  | sleep {ms asked w} : asked.time + ms ≤ w.time → Serves (.sleep ms) asked (.ok ()) w w

variable {lib remote}

theorem Serves.changes {req : Request} {asked w w' : Chains text}
    {answer : Except Failure (Response req)} (h : Serves lib remote req asked answer w w') :
  w.Changes w'
  := by
  cases h with
  | executed _ hgrown htime =>
      refine ⟨htime.ge, ?_⟩
      rw [hgrown]
      apply List.prefix_append
  | executeRefused _ hgrown htime =>
      refine ⟨htime.ge, ?_⟩
      rw [hgrown]
      apply List.prefix_append
  | _ => apply Chains.Changes.refl

end World

/-- The world of the script. -/
def world (lib : Hub.Libraries) (remote : Remote) (text : Delivery.Abort → String) :
    World (Chains text) Failure Response where
  changes := Chains.Changes
  serves := Serves lib remote
  refl := Chains.Changes.refl
  trans := Chains.Changes.trans
  changes_of_serves := Serves.changes

end Scripts.Flow
