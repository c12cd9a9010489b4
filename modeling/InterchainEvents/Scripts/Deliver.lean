import InterchainEvents.Scripts.Progress
import Mathlib.Data.List.Nodup

/-!
# What the test flow delivers

When the full flow has finished, the subscription that it has created is triggered, by the script or
by anyone else, and the callback contract has recorded one event for it. If the script has not
exited with an error, it has shown that event (`flow_delivers`).
-/

namespace Scripts.Flow

open Shared Async Relation
open Watcher.Tasks (Failure orThrow)

variable {lib : Hub.Libraries} {remote : Remote} {text : Delivery.Abort → String}
  {esc : Char → List Char} {s : State} {w : Chains text}

/-! ### The full flow -/

/-- What the full flow is for: its subscription is triggered. -/
def Delivers (lib : Hub.Libraries) (clientId id : String) (w w' : Chains text) (number : ℕ) :
    Prop :=
  (w.state lib).hub.nextId ≤ number ∧ Created lib clientId id w' number ∧
    w'.Triggered lib number

theorem achieves_fullFlow {fromBase64 : String → Except Failure Binary}
    (hbase64 : ∀ bytes, fromBase64 (toBase64 bytes) = .ok bytes)
    (hlib : Watcher.ReadsWireFormat lib) (hesc : SerdeJson.Standard esc) (hsound : remote.Sound esc)
    {id : String} (hid : id ≠ "") (hstays : remote.StaysApproved id w.time)
    (mnemonicHub mnemonicNeutron clientId : String) :
  Achieves (world lib remote text) apply
    (fun _ s' w' => w.Changes w' ∧ (Fits lib w' →
      ∃ number, Delivers lib clientId id w w' number ∧ Shown lib number s' w'))
    (fun _ _ w' => w.Changes w' ∧ (Fits lib w' → ∃ number, Delivers lib clientId id w w' number))
    (fullFlow fromBase64 mnemonicHub mnemonicNeutron clientId (.text id)) s w
  := by
  apply achieves_bind.mpr
  apply (achieves_writeAttestation hsound hid hstays mnemonicNeutron).mono
  case hE => exact fun _ _ _ hfalse => hfalse.elim
  rintro _ s₁ w₁ ⟨hw₁, happroved⟩
  apply achieves_bind.mpr
  apply (achieves_createSubscription mnemonicHub clientId id).mono
  case hE => exact fun _ _ w' ⟨hw', hfull⟩ => ⟨hw₁.trans hw', fun hfits => absurd hfits hfull⟩
  rintro subscriptionId s₂ w₂ ⟨hw₂, hnumber⟩
  by_cases hfits : Fits lib w₂
  case neg =>
      -- there are too many subscriptions already
      refine achieves_of_stable (I := fun w' => w₂.Changes w') (fun _ _ h h' => h'.trans h)
        (.refl w₂) _ ?_ ?_
      · exact fun _ _ w' hw' => ⟨hw₁.trans (hw₂.trans hw'), fun h => absurd (hw'.fits h) hfits⟩
      · exact fun _ _ w' hw' => ⟨hw₁.trans (hw₂.trans hw'), fun h => absurd (hw'.fits h) hfits⟩
  obtain ⟨number, rfl, hnext, hcreated⟩ := hnumber hfits
  have hnext : (w.state lib).hub.nextId ≤ number := (hw₁.extends lib).1.trans hnext
  apply achieves_bind.mpr
  apply (achieves_answered (P := fun _ => True) fun h => by cases h; simp).mono
  case hE => exact fun _ _ _ hfalse => hfalse.elim
  rintro _ s₃ w₃ ⟨hw₃, -⟩
  have hw₃' : w.Changes w₃ := hw₁.trans (hw₂.trans hw₃)
  apply achieves_bind.mpr
  apply (achieves_submitProof hbase64 hlib hesc hsound hstays
    ((happroved.changes hw₂).changes hw₃) (hcreated.changes hw₃) mnemonicHub).mono
  case hE =>
      rintro _ _ w' ⟨hw', htriggered⟩
      exact ⟨hw₃'.trans hw', fun _ =>
        ⟨number, hnext, (hcreated.changes hw₃).changes hw', htriggered⟩⟩
  rintro _ s₄ w₄ ⟨hw₄, htriggered⟩
  apply achieves_bind.mpr
  apply (achieves_queryCallbackEvents htriggered).mono
  case hE => exact fun _ _ _ hfalse => hfalse.elim
  rintro _ s₅ w₅ ⟨hw₅, hshown⟩
  refine ⟨hw₃'.trans (hw₄.trans hw₅), fun _ => ⟨number, ⟨hnext, ?_, ?_⟩, hshown⟩⟩
  · exact ((hcreated.changes hw₃).changes hw₄).changes hw₅
  · exact hw₅.triggered htriggered

/-! ### The script -/

/-- Arguments and variables with which the script goes through the full flow. -/
structure FullFlow (args : List String) (env : ProcessEnv)
    (mnemonicHub mnemonicNeutron clientId id : String) : Prop where
  notQuery : (parseArgs args).get "query-only" ≠ some .present
  notSubmit : (parseArgs args).get "submit-proof" ≠ some .present
  hub : firstTruthy env.mnemonicHub env.mnemonic = some mnemonicHub
  neutron : firstTruthy env.mnemonicNeutron env.mnemonic = some mnemonicNeutron
  client : (parseArgs args).getOr "client-id" neutronLightClientId = .text clientId
  tendermint : "07-tendermint-".toList.isPrefixOf clientId.toList = true
  attestation : (parseArgs args).getOr "attestation-id" "cosmos1abc" = .text id

section Main

variable {fromBase64 : String → Except Failure Binary} {args : List String} {env : ProcessEnv}
  {mnemonicHub mnemonicNeutron clientId id : String}

theorem getOr_ne_empty {flags : Flags} {key default s : String} (hdefault : default ≠ "")
    (h : flags.getOr key default = .text s) :
  s ≠ ""
  := by
  rw [Flags.getOr] at h
  split at h
  · obtain rfl := Flag.text.inj h
    apply hdefault
  · obtain rfl := Flag.text.inj h
    split_ifs with hempty
    · apply hdefault
    · apply hempty
  · cases h

theorem FullFlow.run_eq (h : FullFlow args env mnemonicHub mnemonicNeutron clientId id) :
  run fromBase64 (parseArgs args) env
    = fullFlow fromBase64 mnemonicHub mnemonicNeutron clientId (.text id)
  := by
  simp only [run, if_neg h.notQuery, h.hub, if_neg h.notSubmit, h.neutron, h.client, h.attestation,
    checkedFlow, h.tendermint]
  rfl

/-- What was shown stays on the console, and who has exited has. -/
theorem follows_state {s s' : State} (h : Follows apply s s') :
  s.lines <+: s'.lines ∧ (s'.exitCode = none → s.exitCode = none)
  := by
  induction h with
  | refl => exact ⟨List.prefix_refl _, id⟩
  | tail _ hstep ih =>
      obtain ⟨c, rfl⟩ := hstep
      cases c with
      | print line => exact ⟨ih.1.trans (List.prefix_append _ _), ih.2⟩
      | exit code => exact ⟨ih.1, by simp [apply]⟩

theorem achieves_main (hbase64 : ∀ bytes, fromBase64 (toBase64 bytes) = .ok bytes)
    (hlib : Watcher.ReadsWireFormat lib) (hesc : SerdeJson.Standard esc) (hsound : remote.Sound esc)
    (hargs : FullFlow args env mnemonicHub mnemonicNeutron clientId id)
    (hstays : remote.StaysApproved id w.time) :
  Achieves (world lib remote text) apply
    (fun _ s' w' => w.Changes w' ∧ (Fits lib w' → ∃ number, Delivers lib clientId id w w' number ∧
      (s'.exitCode = none → Shown lib number s' w'))) (fun _ _ _ => False)
    (main fromBase64 args env) s w
  := by
  have hid : id ≠ "" := getOr_ne_empty (by decide) hargs.attestation
  apply achieves_handle.mpr
  rw [hargs.run_eq]
  apply (achieves_fullFlow hbase64 hlib hesc hsound hid hstays mnemonicHub mnemonicNeutron
    clientId).mono
  · rintro _ s' w' ⟨hw', hdelivers⟩
    use hw'
    intro hfits
    obtain ⟨number, hdelivers, hshown⟩ := hdelivers hfits
    exact ⟨number, hdelivers, fun _ => hshown⟩
  · -- it has exited
    rintro e s' w' ⟨hw', hdelivers⟩
    refine ⟨hw', fun hfits => ?_⟩
    obtain ⟨number, hdelivers⟩ := hdelivers hfits
    exact ⟨number, hdelivers, by simp [apply]⟩

end Main

/-! ### A sample -/

/-- The attestation that is written in the block of height 1. -/
def sampleAttest : Registry.Tx :=
  .message ⟨1⟩ ⟨⟨"account"⟩, .attest "kyc" "approved"⟩ (fun _ => .succeed)
    Registry.ContractError.message

/-- What the registry stores of it, and under which key of the store `wasm`. -/
def sampleValue : Binary :=
  (⟨"approved", "account", 1⟩ : Registry.Attestation).json SerdeJson.escape

def sampleKey : Binary :=
  buildAttestationIavlKey "kyc".toList

/-- Libraries that know the proofs of this value. -/
def sampleLibraries : Hub.Libraries :=
  { Watcher.wireLibraries with
    verifyMembership := fun (p : Hub.ProofSpec) spec root key value =>
      match p, spec with
      | .iavl, .iavl => root = Hub.sampleModuleRoot && key = sampleKey && value = sampleValue
      | .tendermint, .tendermint =>
          root = Hub.sampleAppHash && key = utf8 "wasm" && value = Hub.sampleModuleRoot
      | _, _ => false }

/-- A remote chain on which nothing else is attested. -/
def sampleRemote : Remote where
  state height store key :=
    if store = "wasm" ∧ key = sampleKey ∧ 1 ≤ height then some sampleValue else none
  appHash _ := Hub.sampleAppHash
  madeAt height := 1000 * height
  blocks height := if height = 1 then [sampleAttest] else []

theorem before_sampleRemote (height : ℕ) :
  sampleRemote.before (height + 2) = [sampleAttest]
  := by
  induction height with
  | zero => rfl
  | succ height ih =>
      rw [Remote.before_succ, ih]
      rfl

theorem load_sampleRemote (height : ℕ) (id : String) :
  (sampleRemote.registry height).load id
    = if 1 ≤ height ∧ id = "kyc" then some ⟨"approved", "account", 1⟩ else none
  := by
  cases height with
  | zero => simp [Remote.registry, Remote.before, sampleRemote, Registry.committed,
      Platform.Contract.history]
  | succ height =>
      rw [Remote.registry, before_sampleRemote]
      have hsave : Registry.committed [sampleAttest]
          = Registry.Storage.initial.save "kyc" ⟨"approved", "account", 1⟩ := rfl
      rw [hsave, Registry.Storage.load_save, Registry.Storage.load_initial]
      simp [eq_comm]

theorem buildAttestationIavlKey_injective {id id' : List Char}
    (h : buildAttestationIavlKey id = buildAttestationIavlKey id') :
  id = id'
  := by
  have hlen : (Utf8.encode "attestations".toList).length < 65536 := by decide
  simp only [buildAttestationIavlKey, iavlKey, concatBytes, Js.concat_eq_flatten,
    cwStoragePlusMapKey_eq hlen, Explorer.mapEntry] at h
  apply Utf8.encode_injective
  simpa using h

theorem sampleRemote_sound :
  sampleRemote.Sound SerdeJson.escape
  where
  forward height := by
    simp only [sampleRemote]
    omega
  steady height := by
    simp only [sampleRemote]
    omega
  stores height id := by
    rw [Registry.Storage.raw, load_sampleRemote]
    have hiff : buildAttestationIavlKey id.toList = sampleKey ↔ id = "kyc" :=
      ⟨fun h => String.toList_inj.mp (buildAttestationIavlKey_injective h), by rintro rfl; rfl⟩
    simp only [sampleRemote, hiff, true_and, and_comm]
    split_ifs <;> rfl

theorem sampleRemote_staysApproved (since : ℕ) :
  sampleRemote.StaysApproved "kyc" since
  := by
  intro height _ e he _
  by_cases hone : height = 1
  · subst hone
    have hattested : sampleRemote.attestedIn 1 = [("kyc", ⟨"approved", "account", 1⟩)] := rfl
    rw [hattested] at he
    obtain rfl := List.mem_singleton.mp he
    rfl
  · simp [Remote.attestedIn, sampleRemote, hone, Platform.Contract.history] at he

/-- A node that serves the state at height 11. -/
def sampleNode : Rpc.Node where
  abciQuery path data :=
    if path = "store/wasm/key" ∧ data = "0x" ++ String.ofList (Hex.encode sampleKey) then
      Watcher.answer "wasm" sampleKey sampleValue 11 Hub.sampleIavl Hub.sampleSimple
    else ⟨"", none, "11", none⟩
  appHash _ _ := none

theorem sample_proven :
  Watcher.Proven sampleLibraries Hub.sampleAppHash "wasm" sampleKey sampleValue Hub.sampleIavl
    Hub.sampleSimple
  := by
  have hp : sampleLibraries.decodeCommitmentProof Hub.sampleIavl = .ok Hub.ProofSpec.iavl := rfl
  have hq : sampleLibraries.decodeCommitmentProof Hub.sampleSimple
      = .ok Hub.ProofSpec.tendermint := rfl
  apply Watcher.Proven.intro (by decide) (by decide) hp hq rfl rfl rfl
  · simp [sampleLibraries]
  · simp [sampleLibraries]

theorem sampleLibraries_readsWireFormat :
  Watcher.ReadsWireFormat sampleLibraries
  := Watcher.wireLibraries_readsWireFormat

theorem shown_sampleRemote {store : String} {key value : Binary} :
  (sampleRemote.state 11).shown store key = some value
    ↔ (store = "wasm" ∧ key = sampleKey) ∧ sampleValue = value
  := by
  have hne : sampleValue ≠ [] := json_ne_nil _
  simp only [Watcher.Multistore.shown, sampleRemote]
  by_cases h : store = "wasm" ∧ key = sampleKey
  · simp [h, Option.filter, hne]
  · simp [h]

theorem ask_sampleNode :
  Watcher.ask sampleNode "wasm" sampleKey
    = Watcher.answer "wasm" sampleKey sampleValue 11 Hub.sampleIavl Hub.sampleSimple
  := by
  simp only [Watcher.ask, sampleNode]
  rw [if_pos ⟨rfl, trivial⟩]

theorem sampleNode_honest :
  Watcher.Honest sampleLibraries sampleNode (sampleRemote.state 11) 11 (sampleRemote.appHash 11)
  where
  exact := by decide
  absent store key h := by
    left
    have hne : ¬ (store = "wasm" ∧ key = sampleKey) := by
      intro hkey
      rw [shown_sampleRemote.mpr ⟨hkey, rfl⟩] at h
      contradiction
    simp only [Watcher.ask, sampleNode]
    rw [if_neg]
    rintro ⟨hpath, hdata⟩
    apply hne (Watcher.ask_injective hpath hdata)
  present store key value h := by
    obtain ⟨⟨rfl, rfl⟩, rfl⟩ := shown_sampleRemote.mp h
    exact ⟨_, _, sample_proven, ask_sampleNode⟩
  header attempt text h _ := by
    simp [sampleNode] at h

/-- A call to the hub contract in the name of an account. -/
def sampleTx (message : Hub.ExecuteMsg) : Delivery.Tx :=
  Delivery.routedTx interchainEventsAddress proofCallbackAddress (fun _ => "") ⟨20⟩
    (.hub ⟨⟨"account"⟩, message⟩)

/-- The two transactions that the script makes on the hub. -/
def sampleSubscribe : Delivery.Tx :=
  sampleTx (subscribeOf "07-tendermint-1119" "kyc")

def sampleSubmit : Delivery.Tx :=
  sampleTx (.submitProof 1 ⟨2, 11⟩ Hub.sampleAppHash
    (buildMerkleProof [⟨"ics23:iavl", Hub.sampleIavl⟩, ⟨"ics23:simple", Hub.sampleSimple⟩])
    sampleKey sampleValue)

theorem routed_samples {txs : List Delivery.Tx}
    (htxs : ∀ tx ∈ txs, tx ∈ [sampleSubscribe, sampleSubmit]) :
  ∀ tx ∈ txs, Routed (fun _ => "") tx
  := by
  intro tx htx
  rcases List.mem_pair.mp (htxs tx htx) with rfl | rfl
  · apply Delivery.routed_routedTx
    trivial
  · apply Delivery.routed_routedTx
    simp [Delivery.Sent]

/-- The chains after some of these transactions. -/
def sampleChains (txs : List Delivery.Tx) (htxs : ∀ tx ∈ txs, tx ∈ [sampleSubscribe, sampleSubmit])
    (time : ℕ) : Chains fun _ => "" :=
  ⟨txs, time, routed_samples htxs⟩

/-- In the beginning, … -/
def sampleBegin : Chains fun _ => "" := sampleChains [] (by simp) 500

/-- … after the attestation, … -/
def sampleAttested : Chains fun _ => "" := sampleChains [] (by simp) 1500

/-- … when the subscription is made, … -/
def sampleSubscribed (time : ℕ) : Chains fun _ => "" :=
  sampleChains [sampleSubscribe] (by simp) time

/-- … and when the proof has been submitted. -/
def sampleSubmitted : Chains fun _ => "" :=
  sampleChains [sampleSubscribe, sampleSubmit] (by simp) 12500

theorem ends_await {req : Request} {a : Response req} {w₁ w₂ : Chains text} (hw : w.Changes w₁)
    (hserves : Serves lib remote req w (.ok a) w₁ w₂) :
  Ends (world lib remote text) apply (await req) s w a s w₂
  := Ends.request hw hserves

/-- The account signs. -/
theorem ends_getSigningClient (chain : Chain) (chainName mnemonic : String) :
  Ends (world lib remote text) apply (getSigningClient chain chainName mnemonic) s w "account" s w
  := by
  apply Ends.bind (ends_await (.refl w) .fromMnemonic)
  apply Ends.bind (ends_await (.refl w) (@Serves.getAccounts _ _ _ "account" [] w w))
  apply Ends.bind (ends_await (.refl w) .connectWithSigner)
  exact .done

/-- The attestation is written. -/
theorem ends_writeAttestation :
  Ends (world sampleLibraries sampleRemote fun _ => "") apply
    (writeAttestation "secret" (.text "kyc") "approved") .initial sampleBegin 1
    ⟨[.attestation ⟨"kyc", "approved", "account", 1⟩], none⟩ sampleAttested
  := by
  have hchanges : sampleBegin.Changes sampleAttested := ⟨by decide, List.prefix_refl _⟩
  apply Ends.bind (ends_getSigningClient .neutron "neutron" "secret")
  have hattested : Serves sampleLibraries sampleRemote (.attest "account" (.text "kyc") "approved")
      sampleBegin (.ok ⟨"01", 1, []⟩) sampleAttested sampleAttested :=
    .attested (by decide) (by decide) (List.mem_singleton_self _) (by decide) (by decide) rfl
  apply Ends.bind (ends_await hchanges hattested)
  have hfound : Serves sampleLibraries sampleRemote (.getAttestation (.text "kyc")) sampleAttested
      (.ok ⟨"kyc", "approved", "account", 1⟩) sampleAttested sampleAttested :=
    @Serves.attestation _ _ _ _ 1 _ _ _ ⟨by decide, by decide⟩ rfl
  apply Ends.bind (ends_await (.refl _) hfound)
  exact .act .done

/-- The subscription is created. -/
theorem ends_createSubscription {s : State} :
  ∃ sub, SubscribesTo "07-tendermint-1119" "kyc" sub ∧ sub.status = .active ∧
    ((sampleSubscribed 1500).state sampleLibraries).hub = Hub.Storage.initial.create sub ∧
    Ends (world sampleLibraries sampleRemote fun _ => "") apply
      (createSubscription "secret" "07-tendermint-1119" (.text "kyc")) s sampleAttested (some 1) s
      (sampleSubscribed 1500)
  := by
  have hgrown : (sampleSubscribed 1500).hub = sampleAttested.hub ++ [sampleSubscribe] := rfl
  obtain hfull | ⟨sub, hsub, hactive, hexec⟩ := execute_subscribeOf sampleLibraries
    "07-tendermint-1119" "kyc" ⟨20⟩ ⟨"account"⟩ (sampleAttested.state sampleLibraries).hub
  · exact absurd hfull (by decide)
  obtain ⟨hanswer, hstate⟩ := state_of_execute hgrown hexec
  refine ⟨sub, hsub, hactive, hstate, ?_⟩
  apply Ends.bind (ends_getSigningClient .hub "cosmos" "secret")
  have hshows : Shows ⟨"02", 20, [("action", "subscribe"), ("subscription_id", toString 1)]⟩
      [("action", "subscribe"), ("subscription_id", toString 1)] := ⟨[], rfl, by simp⟩
  have hserves : Serves sampleLibraries sampleRemote
      (.execute "account" (.subscribe (subscribeMsg "07-tendermint-1119" (.text "kyc"))))
      sampleAttested
      (.ok ⟨"02", 20, [("action", "subscribe"), ("subscription_id", toString 1)]⟩) sampleAttested
      (sampleSubscribed 1500) := by
    have hresponse := congrArg Prod.fst hexec
    exact .executed (messageOf_subscribeMsg _ _) hgrown rfl hanswer hresponse hshows
  apply Ends.bind (ends_await (.refl _) hserves)
  rw [subscriptionIdOf_of_shows hshows (by decide)]
  exact .done

theorem sampleBase64_toBase64 (bytes : Binary) :
  sampleBase64 (toBase64 bytes) = .ok bytes
  := by
  rw [sampleBase64, ofBase64_toBase64]
  rfl

/-- The proof is fetched. -/
theorem ends_fetchStateWithProof :
  Ends (world sampleLibraries sampleRemote fun _ => "") apply
    (fetchStateWithProof sampleBase64 (String.ofList (bytesToHex sampleKey)) none) s
    (sampleSubscribed 11500) ⟨sampleKey, sampleValue, some 11,
      [⟨"ics23:iavl", Hub.sampleIavl⟩, ⟨"ics23:simple", Hub.sampleSimple⟩]⟩ s
    (sampleSubscribed 11500)
  := by
  have hquery : Serves sampleLibraries sampleRemote (.abciQuery "store/wasm/key"
      ("0x" ++ String.ofList (bytesToHex sampleKey)) none) (sampleSubscribed 11500)
      (.ok ⟨Watcher.answer "wasm" sampleKey sampleValue 11 Hub.sampleIavl Hub.sampleSimple, none,
        none⟩) (sampleSubscribed 11500) (sampleSubscribed 11500) := by
    have hask := (Watcher.query_eq_ask sampleNode sampleKey).trans ask_sampleNode
    rw [← hask]
    exact .query ⟨by decide, by decide⟩ sampleNode_honest (.inl rfl)
  have hvalue : sampleValue ≠ [] := json_ne_nil _
  have hheight : 11 < 2 ^ 53 := by decide
  apply Ends.bind (ends_await (.refl _) hquery)
  rw [readAnswer_answer sampleBase64_toBase64 (.inl rfl) none hvalue hheight]
  exact .done

/-- The hash of the application is fetched at the first attempt. -/
theorem ends_fetchAppHash :
  Ends (world sampleLibraries sampleRemote fun _ => "") apply (fetchAppHash (some 11)) s
    (sampleSubscribed 11500) Hub.sampleAppHash s (sampleSubscribed 12500)
  := by
  have hchanges : (sampleSubscribed 11500).Changes (sampleSubscribed 12500) :=
    ⟨by decide, List.prefix_refl _⟩
  have hblock : Serves sampleLibraries sampleRemote (.block (some (11 + 1)))
      (sampleSubscribed 11500) (.ok (some (String.ofList (Hex.encode Hub.sampleAppHash))))
      (sampleSubscribed 12500) (sampleSubscribed 12500) := by
    apply Serves.block (by decide) (by decide)
    rw [String.toList_ofList, Hex.decode?_encode]
    rfl
  have hhash : hexToBytes (String.ofList (Hex.encode Hub.sampleAppHash)).toList
      = Hub.sampleAppHash := by
    rw [String.toList_ofList]
    exact Explorer.hexToBytes_eq (Hex.decode?_encode _)
  rw [← hhash]
  apply Ends.bind
  · apply Ends.retry
    apply Ends.bind (ends_await hchanges hblock)
    exact .done
  · exact .done

/-- The proof is fetched and submitted. -/
theorem ends_submitProof {sub : Subscription}
    (hsub : SubscribesTo "07-tendermint-1119" "kyc" sub) (hactive : sub.status = .active)
    (hload : ((sampleSubscribed 12500).state sampleLibraries).hub.load 1 = some sub) :
  (sampleSubmitted.state sampleLibraries).hub
      = ((sampleSubscribed 12500).state sampleLibraries).hub.save 1
          { sub with status := .triggered } ∧
    Ends (world sampleLibraries sampleRemote fun _ => "") apply
      (submitProof sampleBase64 "secret" (some 1) (.text "kyc") none) s (sampleSubscribed 11500)
      () s sampleSubmitted
  := by
  have hgrown : sampleSubmitted.hub = (sampleSubscribed 12500).hub ++ [sampleSubmit] := rfl
  have htriggers : Hub.Triggers sampleLibraries 20 sub Hub.sampleAppHash
      (buildMerkleProof [⟨"ics23:iavl", Hub.sampleIavl⟩, ⟨"ics23:simple", Hub.sampleSimple⟩])
      sampleKey sampleValue :=
    triggers_of_proven sampleLibraries_readsWireFormat SerdeJson.standard_escape hsub hactive
      rfl sample_proven 20
  obtain ⟨hanswer, hstate⟩ := state_of_submit hgrown hload hsub.callbackContract htriggers
  use hstate
  apply Ends.bind ends_fetchStateWithProof
  apply Ends.bind
  · apply Ends.bind ends_fetchAppHash
    exact .done
  apply Ends.bind (ends_getSigningClient .hub "cosmos" "secret")
  have hexec := congrArg Prod.fst
    (Hub.executeSubmitProof_of_triggers hload htriggers ⟨neutronRevisionNumber, 11⟩)
  have hread := messageOf_submitProofMsg 1 11 Hub.sampleAppHash
    (buildMerkleProof [⟨"ics23:iavl", Hub.sampleIavl⟩, ⟨"ics23:simple", Hub.sampleSimple⟩])
    sampleKey sampleValue
  have hserves : Serves sampleLibraries sampleRemote (.execute "account" _)
      (sampleSubscribed 12500) (.ok ⟨"03", 20, _⟩) (sampleSubscribed 12500) sampleSubmitted :=
    .executed hread hgrown rfl hanswer hexec ⟨[], rfl, by simp⟩
  apply Ends.bind (ends_await (.refl _) hserves)
  exact .done

/-- What has been shown after the attestation, and in the end. -/
def sampleAttestedState : State :=
  ⟨[.attestation ⟨"kyc", "approved", "account", 1⟩], none⟩

def sampleSubmittedState : State :=
  apply (.print (.events (sampleSubmitted.state sampleLibraries).events)) sampleAttestedState

/-- The full flow, up to the end. -/
theorem ends_fullFlow :
  Fits sampleLibraries sampleSubmitted ∧
    Ends (world sampleLibraries sampleRemote fun _ => "") apply
      (fullFlow sampleBase64 "secret" "secret" "07-tendermint-1119" (.text "kyc")) .initial
      sampleBegin () sampleSubmittedState sampleSubmitted
  := by
  obtain ⟨sub, hsub, hactive, hstate, hcreate⟩ := @ends_createSubscription sampleAttestedState
  have hload : ((sampleSubscribed 12500).state sampleLibraries).hub.load 1 = some sub := by
    show ((sampleSubscribed 1500).state sampleLibraries).hub.load 1 = some sub
    rw [hstate, Hub.Storage.load_create]
    rfl
  obtain ⟨hsubmitted, hsubmit⟩ := @ends_submitProof sampleAttestedState sub hsub hactive hload
  constructor
  · show (sampleSubmitted.state sampleLibraries).hub.nextId ≤ 2 ^ 53
    rw [hsubmitted, Hub.Storage.nextId_save]
    show ((sampleSubscribed 1500).state sampleLibraries).hub.nextId ≤ 2 ^ 53
    rw [hstate, Hub.Storage.nextId_create]
    decide
  · have hchanges : (sampleSubscribed 1500).Changes (sampleSubscribed 11500) :=
      ⟨by decide, List.prefix_refl _⟩
    apply Ends.bind ends_writeAttestation
    apply Ends.bind hcreate
    apply Ends.bind (ends_await hchanges (.sleep (by decide)))
    apply Ends.bind hsubmit
    apply Ends.bind
    · apply Ends.bind (ends_await (.refl _) .connect)
      apply Ends.bind (ends_await (.refl _) .events)
      exact .act .done
    · exact .done

end Scripts.Flow
