import InterchainEvents.Scripts.Chains
import InterchainEvents.Watcher.Settle

/-!
# What the functions of the script achieve

The script goes through both chains while others make transactions there. Here is what each of its
functions achieves with an honest node, whatever happens while it waits: the attestation is in a
block, the subscription is stored, the proof is fetched and triggers the subscription, and the event
that the callback contract has recorded for it is shown.
-/

namespace Scripts.Flow

open Shared Async Relation
open Watcher.Tasks (Failure)

variable {lib : Hub.Libraries} {remote : Remote} {text : Delivery.Abort → String}
  {esc : Char → List Char} {s : State} {w : Chains text}

/-! ### Signing -/

/-- A request that is always answered. -/
theorem achieves_answered {req : Request} {P : Response req → Prop}
    (hanswer : ∀ {asked answer} {w w' : Chains text}, Serves lib remote req asked answer w w' →
      ∃ a, answer = .ok a ∧ P a) :
  Achieves (world lib remote text) apply (fun a _ w' => w.Changes w' ∧ P a) (fun _ _ _ => False)
    (await req) s w
  := by
  apply achieves_request.mpr
  intro answer w₁ w₂ s' hw₁ hserves
  obtain ⟨a, rfl, ha⟩ := hanswer hserves
  refine ⟨?_, by simp⟩
  rintro a' ⟨⟩
  exact ⟨hw₁.trans hserves.changes, ha⟩

/-- There is always a client that signs. -/
theorem achieves_getSigningClient (chain : Chain) (chainName mnemonic : String) :
  Achieves (world lib remote text) apply (fun _ _ w' => w.Changes w') (fun _ _ _ => False)
    (getSigningClient chain chainName mnemonic) s w
  := by
  apply achieves_bind.mpr
  apply (achieves_answered (P := fun _ => True) fun h => by cases h; simp).mono
  case hE => exact fun _ _ _ hfalse => hfalse.elim
  rintro _ s₁ w₁ ⟨hw₁, -⟩
  apply achieves_bind.mpr
  apply (achieves_answered (P := fun accounts => accounts ≠ []) fun h => by cases h; simp).mono
  case hE => exact fun _ _ _ hfalse => hfalse.elim
  rintro accounts s₂ w₂ ⟨hw₂, haccounts⟩
  apply achieves_bind.mpr
  apply (achieves_answered (P := fun _ => True) fun h => by cases h; simp).mono
  case hE => exact fun _ _ _ hfalse => hfalse.elim
  rintro _ s₃ w₃ ⟨hw₃, -⟩
  obtain ⟨account, accounts, rfl⟩ := List.exists_cons_of_ne_nil haccounts
  apply achieves_fromExcept.mpr
  refine ⟨?_, by simp [Watcher.Tasks.orThrow]⟩
  rintro address ⟨⟩
  exact hw₁.trans (hw₂.trans hw₃)

/-! ### Writing the attestation -/

/-- In a block that is there, an identifier has been approved. -/
def ApprovedBy (remote : Remote) (id : String) (since : ℕ) (w : Chains text) : Prop :=
  ∃ height a, since < remote.madeAt height ∧ remote.madeAt height ≤ w.time ∧
    (id, a) ∈ remote.attestedIn height

theorem ApprovedBy.changes {id : String} {since : ℕ} (h : ApprovedBy remote id since w)
    {w' : Chains text} (hw : w.Changes w') :
  ApprovedBy remote id since w'
  := by
  obtain ⟨height, a, hsince, hmade, ha⟩ := h
  exact ⟨height, a, hsince, hmade.trans hw.time_le, ha⟩

/-- At every height that is the latest one from then on, it is approved. -/
theorem ApprovedBy.approved {id : String} {since : ℕ} (h : ApprovedBy remote id since w)
    (hsound : remote.Sound esc) (hstays : remote.StaysApproved id since) {w' : Chains text}
    {height : ℕ} (hlatest : remote.Latest w w' height) :
  remote.Approved id height
  := by
  obtain ⟨height₀, a, hsince, hmade, ha⟩ := h
  apply hstays.approved hsound.forward hsince ha
  by_contra hlt
  have hle : remote.madeAt (height + 1) ≤ remote.madeAt height₀ :=
    Remote.madeAt_mono hsound.forward (Nat.lt_of_not_le hlt)
  have hlate := hlatest.latest
  omega

/-- The attestation is written. -/
theorem achieves_writeAttestation (hsound : remote.Sound esc) {id : String} (hid : id ≠ "")
    (hstays : remote.StaysApproved id w.time) (mnemonic : String) :
  Achieves (world lib remote text) apply
    (fun _ _ w' => w.Changes w' ∧ ApprovedBy remote id w.time w') (fun _ _ _ => False)
    (writeAttestation mnemonic (.text id) "approved") s w
  := by
  apply achieves_bind.mpr
  apply (achieves_getSigningClient .neutron "neutron" mnemonic).mono
  case hE => exact fun _ _ _ hfalse => hfalse.elim
  intro address s₁ w₁ hw₁
  apply achieves_bind.mpr
  apply achieves_request.mpr
  intro answer w₂ w₃ s₃ hw₂ hserves
  have hstatus : "approved" ≠ "" := by decide
  cases hserves with
  | attestRefused hempty => exact absurd hempty (not_or.mpr ⟨hid, hstatus⟩)
  | @attested _ _ _ height _ _ _ _ _ hsince hmade hmem _ _ _ =>
      refine ⟨?_, by simp⟩
      rintro result ⟨⟩
      have happroved : ApprovedBy remote id w.time w₂ :=
        ⟨height, _, hw₁.time_le.trans_lt hsince, hmade,
          Registry.mem_attested_of_message hmem hid hstatus _⟩
      -- it is found when it is asked for
      apply achieves_bind.mpr
      apply achieves_request.mpr
      intro answer w₄ w₅ s₅ hw₄ hserves
      have hw₅ : w.Changes w₅ := hw₁.trans (hw₂.trans (hw₄.trans hserves.changes))
      cases hserves with
      | attestation =>
          refine ⟨?_, by simp⟩
          rintro answer ⟨⟩
          exact ⟨hw₅, happroved.changes hw₄⟩
      | noAttestation hlatest hnone =>
          obtain ⟨a, ha, -⟩ := happroved.approved hsound hstays hlatest
          simp [Registry.queryAttestation, ha] at hnone

/-! ### Creating the subscription -/

/-- A subscription as the script creates it, whatever has become of it. -/
structure SubscribesTo (clientId id : String) (sub : Subscription) : Prop where
  clientId_eq : sub.clientId = clientId
  keyPath : sub.keyPath = ["wasm"]
  watchKey : sub.watchKey = buildAttestationIavlKey id.toList
  condition : sub.condition = .jsonPathEquals "status" "approved"
  callbackContract : sub.callbackContract = proofCallbackAddress
  expiresAt : sub.expiresAt = none

/-- Such a subscription is stored under a number. -/
def Created (lib : Hub.Libraries) (clientId id : String) (w : Chains text) (number : ℕ) : Prop :=
  ∃ sub, (w.state lib).hub.load number = some sub ∧ SubscribesTo clientId id sub

theorem Created.changes {clientId id : String} {number : ℕ} (h : Created lib clientId id w number)
    {w' : Chains text} (hw : w.Changes w') :
  Created lib clientId id w' number
  := by
  obtain ⟨sub, hload, hsub⟩ := h
  obtain ⟨status, hload'⟩ := (hw.extends lib).2 number sub hload
  exact ⟨_, hload', hsub.1, hsub.2, hsub.3, hsub.4, hsub.5, hsub.6⟩

/-- The numbers of the subscriptions are small enough to be held exactly. -/
def Fits (lib : Hub.Libraries) (w : Chains text) : Prop :=
  (w.state lib).hub.nextId ≤ 2 ^ 53

theorem Chains.Changes.fits {w' : Chains text} (h : w.Changes w') (hfits : Fits lib w') :
  Fits lib w
  := (h.extends lib).1.trans hfits

/-- The message of the hub contract that the script sends to subscribe. -/
def subscribeOf (clientId id : String) : Hub.ExecuteMsg :=
  .subscribe clientId ["wasm"] (buildAttestationIavlKey id.toList)
    (.jsonPathEquals "status" "approved") proofCallbackAddress (utf8 callbackMsg) none

theorem messageOf_subscribeMsg (clientId id : String) :
  messageOf (.subscribe (subscribeMsg clientId (.text id))) = some (subscribeOf clientId id)
  := by
  simp [messageOf, subscribeMsg, subscribeOf, SubscriptionCondition.ofWire, Flag.toText]

theorem buildAttestationIavlKey_ne_nil (attestationId : List Char) :
  buildAttestationIavlKey attestationId ≠ []
  := by
  simp [buildAttestationIavlKey, iavlKey, concatBytes, Js.concat_eq_flatten]

/-- Subscribing creates the subscription, if there is a number left for it. -/
theorem execute_subscribeOf (lib : Hub.Libraries) (clientId id : String) (env : Hub.Env)
    (info : Hub.MessageInfo) (hub : Hub.Storage) :
  2 ^ 64 ≤ hub.nextId + 1 ∨ ∃ sub, SubscribesTo clientId id sub ∧ sub.status = .active ∧
    (Hub.execute lib env info (subscribeOf clientId id)).runFrom hub
      = (.ok ⟨none, [("action", "subscribe"), ("subscription_id", toString hub.nextId)]⟩,
          hub.create sub)
  := by
  have hkey := buildAttestationIavlKey_ne_nil id.toList
  have hcallback : proofCallbackAddress ≠ "" := by decide
  have hout := Hub.executeSubscribe_outcome env hub info clientId ["wasm"]
    (buildAttestationIavlKey id.toList) (.jsonPathEquals "status" "approved") proofCallbackAddress
    (utf8 callbackMsg) none
  simp only [subscribeOf, Hub.execute]
  generalize (Hub.executeSubscribe env info clientId ["wasm"]
    (buildAttestationIavlKey id.toList) (.jsonPathEquals "status" "approved") proofCallbackAddress
    (utf8 callbackMsg) none).runFrom hub = o at hout
  cases hout with
  | emptyKeyPath h => cases h
  | emptyWatchKey _ h => exact absurd h hkey
  | emptyCallbackContract _ _ h => exact absurd h hcallback
  | idOverflow _ _ _ h => exact .inl h
  | expiryOverflow _ _ _ _ h => cases h
  | created => exact .inr ⟨_, ⟨rfl, rfl, rfl, rfl, rfl, rfl⟩, rfl, rfl⟩

/-- A transaction whose message leads to no other leaves what it has made of the hub. -/
theorem state_of_execute {w' : Chains text} {env : Hub.Env} {info : Hub.MessageInfo}
    {message : Hub.ExecuteMsg} {callback : Platform.SubMsg Hub.Callback → Delivery.Script}
    {refusal : Delivery.Abort → String} {attributes : List (String × String)} {hub : Hub.Storage}
    (hgrown : w'.hub = w.hub ++ [.message env (.hub ⟨info, message⟩) callback refusal])
    (hexec : (Hub.execute lib env info message).runFrom (w.state lib).hub
      = (.ok ⟨none, attributes⟩, hub)) :
  ((Delivery.contract lib).send env (.hub ⟨info, message⟩) callback (w.state lib)).answer = .ok () ∧
    (w'.state lib).hub = hub
  := by
  have hexec' : (Delivery.contract lib).execute env (.hub ⟨info, message⟩) (w.state lib)
      = (.ok none, ⟨hub, (w.state lib).events⟩) := by
    rw [Delivery.execute_hub]
    simp only [Hub.contract, hexec]
    rfl
  obtain ⟨hanswer, hstate⟩ := Platform.Contract.send_of_no_callback callback hexec'
  use hanswer
  rw [Chains.state, hgrown, Delivery.committed_append]
  show ((Delivery.contract lib).transact _ (w.state lib)).state.hub = _
  rw [Platform.Contract.transact_message_of_ok hanswer, hstate]

theorem subscriptionIdOf_of_shows {result : ExecuteResult} {number : ℕ}
    (h : Shows result [("action", "subscribe"), ("subscription_id", toString number)])
    (hnumber : number < 2 ^ 53) :
  subscriptionIdOf result = some (number : ℤ)
  := by
  obtain ⟨own, hattributes, hown⟩ := h
  have hfind : result.attributes.find? (fun a => a.1 = "subscription_id")
      = some ("subscription_id", toString number) := by
    rw [hattributes, List.find?_append, List.find?_eq_none.mpr (by simpa using hown),
      Option.none_or]
    rfl
  rw [subscriptionIdOf, hfind]
  apply Js.integer_parseInt_toString hnumber

/-- The subscription is created, and its number found in the answer, as long as numbers fit. -/
theorem achieves_createSubscription (mnemonic clientId id : String) :
  Achieves (world lib remote text) apply
    (fun (subscriptionId : Option ℤ) _ w' => w.Changes w' ∧ (Fits lib w' →
      ∃ number : ℕ, subscriptionId = some number ∧ (w.state lib).hub.nextId ≤ number ∧
        Created lib clientId id w' number))
    (fun _ _ w' => w.Changes w' ∧ ¬ Fits lib w')
    (createSubscription mnemonic clientId (.text id)) s w
  := by
  apply achieves_bind.mpr
  apply (achieves_getSigningClient .hub "cosmos" mnemonic).mono
  case hE => exact fun _ _ _ hfalse => hfalse.elim
  intro address s₁ w₁ hw₁
  apply achieves_bind.mpr
  apply achieves_request.mpr
  intro answer w₂ w₃ s₃ hw₂ hserves
  have hw₂ : w.Changes w₂ := hw₁.trans hw₂
  have hw₂₃ : w₂.Changes w₃ := hserves.changes
  have hw₃ : w.Changes w₃ := hw₂.trans hw₂₃
  have hmessage := messageOf_subscribeMsg clientId id
  cases hserves with
  | executeUnread hnone => simp [hmessage] at hnone
  | @executed _ _ _ env _ _ response _ _ _ _ hread hgrown _ hanswer hresponse hshows =>
      obtain rfl := Option.some.inj (hmessage.symm.trans hread)
      refine ⟨?_, by simp⟩
      rintro result ⟨⟩
      use hw₃
      intro hfits
      rcases execute_subscribeOf lib clientId id env ⟨address⟩ (w₂.state lib).hub with
        hfull | ⟨sub, hsub, -, hexec⟩
      · have hfits₂ : (w₂.state lib).hub.nextId ≤ 2 ^ 53 := hw₂₃.fits hfits
        omega
      · obtain ⟨-, hstate⟩ := state_of_execute hgrown hexec
        rw [hexec] at hresponse
        obtain rfl := Except.ok.inj hresponse
        have hnext : (w₂.state lib).hub.nextId + 1 ≤ 2 ^ 53 := by
          have hle : (w₃.state lib).hub.nextId ≤ 2 ^ 53 := hfits
          rwa [hstate] at hle
        refine ⟨(w₂.state lib).hub.nextId, subscriptionIdOf_of_shows hshows (by omega),
          (hw₂.extends lib).1, sub, ?_, hsub⟩
        rw [hstate, Hub.Storage.load_create, if_pos rfl]
  | @executeRefused _ _ _ env _ _ error failure _ _ _ hread hgrown _ hanswer =>
      obtain rfl := Option.some.inj (hmessage.symm.trans hread)
      refine ⟨by simp, ?_⟩
      rintro failure ⟨⟩
      use hw₃
      intro hfits
      rcases execute_subscribeOf lib clientId id env ⟨address⟩ (w₂.state lib).hub with
        hfull | ⟨sub, hsub, -, hexec⟩
      · have hfits₂ : (w₂.state lib).hub.nextId ≤ 2 ^ 53 := hw₂₃.fits hfits
        omega
      · obtain ⟨hok, -⟩ := state_of_execute hgrown hexec
        rw [hok] at hanswer
        cases hanswer

/-! ### Fetching the proof -/

section Fetching

variable {fromBase64 : String → Except Failure Binary}

/-- An answer with a value is read. -/
theorem readAnswer_answer (hbase64 : ∀ bytes, fromBase64 (toBase64 bytes) = .ok bytes)
    {code : Option ℕ} (hcode : code = none ∨ code = some 0) (log : Option String)
    {key value : Binary} (hvalue : value ≠ []) {height : ℕ} (hheight : height < 2 ^ 53)
    (iavl simple : Binary) :
  readAnswer fromBase64 ⟨Watcher.answer "wasm" key value height iavl simple, code, log⟩
    = .ok ⟨key, value, some height, [⟨"ics23:iavl", iavl⟩, ⟨"ics23:simple", simple⟩]⟩
  := by
  have hok : ¬ (code ≠ some 0 ∧ code ≠ none) := by
    rcases hcode with rfl | rfl <;> simp
  have hne : toBase64 value ≠ "" := fun h => hvalue (Watcher.toBase64_eq_empty_iff.mp h)
  have hfilter : (some (toBase64 value)).filter (· ≠ "") = some (toBase64 value) := by simp [hne]
  simp only [readAnswer, if_neg hok, Watcher.answer, hfilter, hbase64, integerOf,
    Js.integer_parseInt_toString hheight]
  simp [readProofOp, hbase64, Watcher.Tasks.orThrow, Bind.bind, Except.bind, Pure.pure, Except.pure]

theorem json_ne_nil (a : Registry.Attestation) :
  a.json esc ≠ []
  := Utf8.encode_cons_ne_nil '{' _

/-- What is fetched is that the identifier is approved. -/
inductive Fetched (lib : Hub.Libraries) (remote : Remote) (esc : Char → List Char) (id : String)
    (w : Chains text) : ProofResult → Prop
  | intro {height : ℕ} {a : Registry.Attestation} {iavl simple : Binary} :
      remote.madeAt height ≤ w.time → a.status = "approved" →
      Watcher.Proven lib (remote.appHash height) "wasm" (buildAttestationIavlKey id.toList)
        (a.json esc) iavl simple →
      Fetched lib remote esc id w ⟨buildAttestationIavlKey id.toList, a.json esc, some height,
        [⟨"ics23:iavl", iavl⟩, ⟨"ics23:simple", simple⟩]⟩

theorem achieves_fetchStateWithProof (hbase64 : ∀ bytes, fromBase64 (toBase64 bytes) = .ok bytes)
    (hsound : remote.Sound esc) {id : String} {since : ℕ} (hstays : remote.StaysApproved id since)
    (happroved : ApprovedBy remote id since w) :
  Achieves (world lib remote text) apply
    (fun proof _ w' => w.Changes w' ∧ Fetched lib remote esc id w' proof) (fun _ _ _ => False)
    (fetchStateWithProof fromBase64
      (String.ofList (bytesToHex (buildAttestationIavlKey id.toList))) none) s w
  := by
  apply achieves_bind.mpr
  apply achieves_request.mpr
  intro answer w₁ w₂ s' hw₁ hserves
  cases hserves with
  | @query _ _ node height code log _ _ hlatest honest hcode =>
      refine ⟨?_, by simp⟩
      rintro result ⟨⟩
      obtain ⟨a, ha, hstatus⟩ := happroved.approved hsound hstays hlatest
      have hstored : remote.state height "wasm" (buildAttestationIavlKey id.toList)
          = some (a.json esc) := by
        rw [hsound.stores, Registry.Storage.raw, ha, Option.map_some]
      have hshown : Watcher.Multistore.shown (remote.state height) "wasm"
          (buildAttestationIavlKey id.toList) = some (a.json esc) := by
        rw [Watcher.Multistore.shown, hstored]
        simp [json_ne_nil]
      obtain ⟨iavl, simple, hproven, hask⟩ := honest.present _ _ _ hshown
      have hquery : node.abciQuery "store/wasm/key"
          ("0x" ++ String.ofList (bytesToHex (buildAttestationIavlKey id.toList))) = _ :=
        (Watcher.query_eq_ask node _).trans hask
      apply achieves_fromExcept.mpr
      rw [hquery, readAnswer_answer hbase64 hcode log (json_ne_nil a) honest.exact]
      refine ⟨?_, by simp⟩
      rintro proof ⟨⟩
      exact ⟨hw₁, .intro hlatest.made hstatus hproven⟩

/-- The hash is fetched: the next block is made before the last attempt. -/
theorem achieves_fetchAppHash (hsteady : remote.Steady) {height : ℕ}
    (hmade : remote.madeAt height ≤ w.time) :
  Achieves (world lib remote text) apply
    (fun appHash _ w' => w.Changes w' ∧ appHash = remote.appHash height) (fun _ _ _ => False)
    (fetchAppHash (some height)) s w
  := by
  have hnext := hsteady height
  apply achieves_bind.mpr
  -- so many attempts are left that the block is there at the last one
  apply (achieves_retry (Q := fun hash _ w' => w.Changes w' ∧
      Hex.decode? hash.toList = some (remote.appHash height))
    (I := fun attempts w' => w.Changes w' ∧ 0 < attempts ∧
      remote.madeAt (height + 1) ≤ w'.time + 2000 * (attempts - 1)) ?_ ?_
    ⟨.refl w, by decide, by omega⟩).mono
  · rintro hash s' w' ⟨hw', hhash⟩
    use hw'
    exact Explorer.hexToBytes_eq hhash
  · exact fun _ _ _ hfalse => hfalse
  · rintro attempts s₁ w₁ ⟨hw₁, -, hbound⟩
    apply achieves_bind.mpr
    apply achieves_request.mpr
    intro answer w₂ w₃ s₃ hw₂ hserves
    cases hserves with
    | @block _ hash _ _ _ hne hhash =>
        refine ⟨?_, by simp⟩
        rintro answer ⟨⟩
        refine ⟨?_, by simp [hne]⟩
        intro hash' hfilter
        obtain ⟨hhash', -⟩ := Option.filter_eq_some_iff.mp hfilter
        obtain rfl := Option.some.inj hhash'
        exact ⟨hw₁.trans hw₂, hhash⟩
    | noBlock hmissing =>
        refine ⟨?_, by simp⟩
        rintro answer ⟨⟩
        refine ⟨by simp, ?_⟩
        rintro - answer w₄ w₅ s₅ hw₄ hserves
        cases hserves with
        | sleep hslept =>
            have hmissing' : w₁.time < remote.madeAt (height + 1) := hmissing
            have hle := hw₂.time_le
            exact ⟨hw₁.trans (hw₂.trans hw₄), by omega, by omega⟩
    | noHeight hnone =>
        have hnatural : ((height : ℤ) + 1).toNat? = some (height + 1) := Int.mem_toNat?.mpr rfl
        simp [hnatural] at hnone
  · rintro s' w' ⟨-, hlt, -⟩
    omega

/-! ### Submitting the proof -/

/-- A transaction with a proof that triggers a subscription to the callback contract, whether it
succeeds or not. -/
theorem Serves.triggered {sender : String} {msg : HubMsg} {asked w' : Chains text}
    {answer : Except Failure ExecuteResult}
    (hserves : Serves lib remote (.execute sender msg) asked answer w w') {id : ℕ} {height : Height}
    {appHash proof key value : Binary}
    (hmsg : messageOf msg = some (.submitProof id height appHash proof key value))
    {sub : Subscription} (hload : (w.state lib).hub.load id = some sub)
    (hcallback : sub.callbackContract = proofCallbackAddress)
    (htriggers : ∀ h, Hub.Triggers lib h sub appHash proof key value) :
  w'.Triggered lib id
  := by
  suffices hstate : (w'.state lib).hub
      = (w.state lib).hub.save id { sub with status := .triggered } by
    refine ⟨{ sub with status := .triggered }, ?_, hcallback, rfl⟩
    rw [hstate]
    apply Hub.Storage.load_save_self
  cases hserves with
  | executed hread hgrown =>
      obtain rfl := Option.some.inj (hmsg.symm.trans hread)
      exact (state_of_submit hgrown hload hcallback (htriggers _)).2
  | executeRefused hread hgrown =>
      obtain rfl := Option.some.inj (hmsg.symm.trans hread)
      exact (state_of_submit hgrown hload hcallback (htriggers _)).2
  | executeUnread hread => simp [hread] at hmsg

/-- The message of the hub contract that a submission is. -/
theorem messageOf_submitProofMsg (number height : ℕ) (appHash proof key value : Binary) :
  messageOf (.submitProof (submitProofMsg (some number) (some height)
      ⟨toBase64 appHash, toBase64 proof, toBase64 key, toBase64 value⟩))
    = some (.submitProof number ⟨neutronRevisionNumber, height⟩ appHash proof key value)
  := by
  have hnumber : (number : ℤ).toNat? = some number := Int.mem_toNat?.mpr rfl
  have hheight : (height : ℤ).toNat? = some height := Int.mem_toNat?.mpr rfl
  simp [messageOf, submitProofMsg, hnumber, hheight]

/-- A proof that the identifier is approved triggers the subscription. -/
theorem triggers_of_proven (hlib : Watcher.ReadsWireFormat lib) (hesc : SerdeJson.Standard esc)
    {clientId id : String} {sub : Subscription} (hsub : SubscribesTo clientId id sub)
    (hactive : sub.status = .active) {appHash : Binary} {a : Registry.Attestation}
    (hstatus : a.status = "approved") {iavl simple : Binary}
    (hproven : Watcher.Proven lib appHash "wasm" (buildAttestationIavlKey id.toList) (a.json esc)
      iavl simple) (h : ℕ) :
  Hub.Triggers lib h sub appHash
    (buildMerkleProof [⟨"ics23:iavl", iavl⟩, ⟨"ics23:simple", simple⟩])
    (buildAttestationIavlKey id.toList) (a.json esc)
  where
  active := hactive
  unexpired := by
    apply Hub.hasExpired_eq_false_iff.mpr
    simp [hsub.expiresAt]
  key_eq := hsub.watchKey.symm
  proven := by
    rw [hsub.keyPath, ← Watcher.buildMerkleProof_eq]
    apply (hproven.chained hlib).verify
  met := by
    rw [hsub.condition]
    apply (Registry.meets_json_iff lib hesc a "approved").1.mpr hstatus.symm

/-- When the proof has been submitted, the subscription is triggered. If that fails, somebody else
has triggered it. -/
theorem achieves_submitProof (hbase64 : ∀ bytes, fromBase64 (toBase64 bytes) = .ok bytes)
    (hlib : Watcher.ReadsWireFormat lib) (hesc : SerdeJson.Standard esc) (hsound : remote.Sound esc)
    {clientId id : String} {since : ℕ} (hstays : remote.StaysApproved id since)
    (happroved : ApprovedBy remote id since w) {number : ℕ}
    (hcreated : Created lib clientId id w number) (mnemonic : String) :
  Achieves (world lib remote text) apply (fun _ _ w' => w.Changes w' ∧ w'.Triggered lib number)
    (fun _ _ w' => w.Changes w' ∧ w'.Triggered lib number)
    (submitProof fromBase64 mnemonic (some number) (.text id) none) s w
  := by
  apply achieves_bind.mpr
  apply (achieves_fetchStateWithProof hbase64 hsound hstays happroved).mono
  case hE => exact fun _ _ _ hfalse => hfalse.elim
  rintro _ s₁ w₁ ⟨hw₁, @⟨height, a, iavl, simple, hmade, hstatus, hproven⟩⟩
  apply achieves_bind.mpr
  apply achieves_bind.mpr
  apply (achieves_fetchAppHash hsound.steady hmade).mono
  case hE => exact fun _ _ _ hfalse => hfalse.elim
  rintro appHash s₂ w₂ ⟨hw₂, rfl⟩
  apply achieves_bind.mpr
  apply (achieves_getSigningClient .hub "cosmos" mnemonic).mono
  case hE => exact fun _ _ _ hfalse => hfalse.elim
  intro address s₃ w₃ hw₃
  -- the proof is submitted
  apply achieves_bind.mpr
  apply achieves_request.mpr
  intro answer w₄ w₅ s₅ hw₄ hserves
  have hw₄ : w.Changes w₄ := hw₁.trans (hw₂.trans (hw₃.trans hw₄))
  have hw₅ : w.Changes w₅ := hw₄.trans hserves.changes
  have hread := messageOf_submitProofMsg number height (remote.appHash height)
    (buildMerkleProof [⟨"ics23:iavl", iavl⟩, ⟨"ics23:simple", simple⟩])
    (buildAttestationIavlKey id.toList) (a.json esc)
  have htriggered : w₅.Triggered lib number := by
    obtain ⟨sub, hload, hsub⟩ := hcreated.changes hw₄
    rcases (w₄.accounted lib).status number sub hload hsub.callbackContract with
      hactive | htriggered
    · exact hserves.triggered hread hload hsub.callbackContract
        (triggers_of_proven hlib hesc hsub hactive hstatus hproven)
    · exact hserves.changes.triggered ⟨sub, hload, hsub.callbackContract, htriggered⟩
  constructor
  · intro result _
    exact ⟨hw₅, htriggered⟩
  · intro e _
    exact ⟨hw₅, htriggered⟩

end Fetching

/-! ### Showing the event -/

/-- An event that the callback contract has recorded for a subscription is shown. -/
def Shown (lib : Hub.Libraries) (number : ℕ) (s : State) (w : Chains text) : Prop :=
  ∃ e events, (number, e) ∈ w.sent lib ∧ .events events ∈ s.lines ∧ e ∈ events

/-- The event of a triggered subscription is shown. -/
theorem achieves_queryCallbackEvents {number : ℕ} (htriggered : w.Triggered lib number) :
  Achieves (world lib remote text) apply
    (fun _ s' w' => w.Changes w' ∧ Shown lib number s' w') (fun _ _ _ => False)
    queryCallbackEvents s w
  := by
  apply achieves_bind.mpr
  apply (achieves_answered (P := fun _ => True) fun h => by cases h; simp).mono
  case hE => exact fun _ _ _ hfalse => hfalse.elim
  rintro _ s₁ w₁ ⟨hw₁, -⟩
  apply achieves_bind.mpr
  apply achieves_request.mpr
  intro answer w₂ w₃ s₃ hw₂ hserves
  cases hserves with
  | events =>
      refine ⟨?_, by simp⟩
      rintro events ⟨⟩
      have hw₂ : w.Changes w₂ := hw₁.trans hw₂
      obtain ⟨e, hsent, he⟩ := Chains.recorded (hw₂.triggered htriggered)
      refine ⟨hw₂, e, _, hsent, ?_, he⟩
      apply List.mem_append_right
      apply List.mem_singleton_self

end Scripts.Flow
