import InterchainEvents.Watcher.Submit

/-!
# The store that the watcher proves

A subscription names a store of the remote chain, and the watcher should evaluate the condition on
the value of the key in that store and submit a proof from there (`ProvesStore`). But every query
goes to the store `wasm`. So the watcher proves the store of a subscription if it is that one, and
otherwise only where nothing is due and nothing else is shown (`provesStore_iff`).
-/

namespace Watcher

open Shared Hub

variable {lib : Libraries}

/-! ### The remote chain -/

/-- The state of a remote chain: the values under the keys of its stores. -/
abbrev Multistore : Type := String → Binary → Option Binary

/-- The value that an answer shows for a key of a store. An empty value is shown like none. -/
def Multistore.shown (state : Multistore) (store : String) (key : Binary) : Option Binary :=
  (state store key).filter (· ≠ [])

/-- What a node answers for a key of a store. -/
def ask (node : Rpc.Node) (store : String) (key : Binary) : Rpc.QueryResponse :=
  node.abciQuery ("store/" ++ store ++ "/key") ("0x" ++ String.ofList (Hex.encode key))

/-- The answer with a value and the two steps of a proof. -/
def answer (store : String) (key value : Binary) (height : ℕ) (iavl simple : Binary) :
    Rpc.QueryResponse where
  key := toBase64 key
  value := some (toBase64 value)
  height := toString height
  proofOps := some [⟨"ics23:iavl", toBase64 key, toBase64 iavl⟩,
    ⟨"ics23:simple", toBase64 (utf8 store), toBase64 simple⟩]

/-- Two existence proofs: one of the value under the key, and one of its root under the name of the
store. -/
inductive Proven (lib : Libraries) (appHash : Binary) (store : String) (key value : Binary) :
    (iavl simple : Binary) → Prop
  | intro {iavl simple moduleRoot : Binary} {iavlCommitment simpleCommitment : lib.CommitmentProof}
      {iavlExistence simpleExistence : lib.ExistenceProof} :
      iavl.length < 2 ^ 32 → simple.length < 2 ^ 32 →
      lib.decodeCommitmentProof iavl = .ok iavlCommitment →
      lib.decodeCommitmentProof simple = .ok simpleCommitment →
      lib.exist iavlCommitment = some iavlExistence →
      lib.exist simpleCommitment = some simpleExistence →
      lib.calculateExistenceRoot iavlExistence = .ok moduleRoot →
      lib.verifyMembership iavlCommitment .iavl moduleRoot key value = true →
      lib.verifyMembership simpleCommitment .tendermint appHash (utf8 store) moduleRoot = true →
      Proven lib appHash store key value iavl simple

/-- A node serves a state at a height: it shows the values of that state with proofs that end at
a hash, and that hash is in the header of the next block, once that is there. -/
structure Honest (lib : Libraries) (node : Rpc.Node) (state : Multistore) (height : ℕ)
    (appHash : Binary) : Prop where
  exact : height < 2 ^ 53
  absent : ∀ store key, state.shown store key = none →
    (ask node store key).value = none ∨ (ask node store key).value = some ""
  present : ∀ store key value, state.shown store key = some value →
    ∃ iavl simple, Proven lib appHash store key value iavl simple ∧
      ask node store key = answer store key value height iavl simple
  header : ∀ attempt text, node.appHash (height + 1) attempt = some text → text ≠ "" →
    Hex.decode? text.toList = some appHash

/-- The header of the next block is there at one of the attempts. -/
def HeaderShown (node : Rpc.Node) (height : ℕ) : Prop :=
  ∃ attempt < 10, ∃ text, node.appHash (height + 1) attempt = some text ∧ text ≠ ""

/-- An existence proof is a proof of one key. -/
def OneKey (lib : Libraries) : Prop :=
  ∀ (p : lib.CommitmentProof) (spec : ProofSpec) (root root' key key' value value' : Binary),
    lib.exist p ≠ none → lib.verifyMembership p spec root key value = true →
    lib.verifyMembership p spec root' key' value' = true → key = key'

/-! ### What the watcher should do -/

/-- Something is to be submitted for a subscription to a store: the store shows a value of the
key, the condition holds of it, and the header with the hash is there. -/
def Due (node : Rpc.Node) (state : Multistore) (height : ℕ) (sub : Subscription) (store : String) :
    Prop :=
  (∃ value, state.shown store sub.watchKey = some value ∧
    checkCondition sub.condition.toWire value = true) ∧ HeaderShown node height

/-- The message carries the key, the value and the steps of the proof that a store shows. -/
structure Carries (node : Rpc.Node) (state : Multistore) (sub : Subscription) (store : String)
    (msg : SubmitMsg) : Prop where
  key : msg.key = toBase64 sub.watchKey
  value : ∃ value, state.shown store sub.watchKey = some value ∧ msg.value = toBase64 value
  proof : ∃ proofOps, proofOpsOf (ask node store sub.watchKey) = some proofOps ∧
    msg.proof = toBase64 (buildMerkleProof proofOps)

/-- The message passes the contract's checks of the key and of the proof. -/
def Passes (lib : Libraries) (sub : Subscription) (msg : SubmitMsg) : Prop :=
  ∃ appHash proof key value, ofBase64 msg.appHash = some appHash ∧
    ofBase64 msg.proof = some proof ∧ ofBase64 msg.key = some key ∧
    ofBase64 msg.value = some value ∧ msg.subscriptionId = sub.id ∧ key = sub.watchKey ∧
    verifyChainedMembership lib appHash proof sub.keyPath key value = .ok ()

/-- What the watcher does for a subscription concerns the store of the subscription. -/
structure ProvesStore (lib : Libraries) (node : Rpc.Node) (accepts : SubmitMsg → Bool)
    (state : Multistore) (height : ℕ) (sub : Subscription) (store : String) : Prop where
  evaluated : ∀ condition value,
    .evaluate condition value ∈ processSubscription node accepts (wire sub) →
      condition = sub.condition.toWire ∧ state.shown store sub.watchKey = some value
  submitted : ∀ msg, .submit msg ∈ processSubscription node accepts (wire sub) →
    Carries node state sub store msg ∧ Passes lib sub msg
  due : Due node state height sub store →
    ∃ msg, .submit msg ∈ processSubscription node accepts (wire sub)
  absent : state.shown store sub.watchKey = none →
    ∀ msg, .submit msg ∉ processSubscription node accepts (wire sub)

/-! ### Fetching from an honest node -/

theorem proofOpsOf_answer (store : String) (key value : Binary) (height : ℕ)
    (iavl simple : Binary) :
  proofOpsOf (answer store key value height iavl simple)
    = some [⟨"ics23:iavl", iavl⟩, ⟨"ics23:simple", simple⟩]
  := by
  simp [proofOpsOf, answer, fromBase64_toBase64]

/-- The query of the watcher is one of the store `wasm`. -/
theorem query_eq_ask (node : Rpc.Node) (key : Binary) :
  node.abciQuery "store/wasm/key" ("0x" ++ String.ofList (bytesToHex key)) = ask node "wasm" key
  := by
  rw [ask, bytesToHex, Explorer.bytesToHex_eq]
  rfl

theorem fetchStateWithProof_of_absent {node : Rpc.Node} {state : Multistore} {height : ℕ}
    {appHash : Binary} (honest : Honest lib node state height appHash) {key : Binary}
    (h : state.shown "wasm" key = none) :
  fetchStateWithProof node (bytesToHex key) = some none
  := by
  simp only [fetchStateWithProof, query_eq_ask]
  rcases honest.absent "wasm" key h with h | h <;> simp [h]

theorem fetchStateWithProof_of_present {node : Rpc.Node} {state : Multistore} {height : ℕ}
    {appHash : Binary} (honest : Honest lib node state height appHash) {key value : Binary}
    (h : state.shown "wasm" key = some value) :
  ∃ iavl simple, Proven lib appHash "wasm" key value iavl simple ∧
    ask node "wasm" key = answer "wasm" key value height iavl simple ∧
    fetchStateWithProof node (bytesToHex key)
      = some (some ⟨key, value, some height,
          [⟨"ics23:iavl", iavl⟩, ⟨"ics23:simple", simple⟩]⟩)
  := by
  obtain ⟨iavl, simple, hproven, hask⟩ := honest.present "wasm" key value h
  refine ⟨iavl, simple, hproven, hask, ?_⟩
  have hne : toBase64 value ≠ "" := by
    intro hempty
    have := (Option.filter_eq_some_iff.mp h).2
    simp [toBase64_eq_empty_iff.mp hempty] at this
  simp only [fetchStateWithProof, query_eq_ask, hask, proofOpsOf_answer]
  simp only [answer, if_neg hne, fromBase64_toBase64, heightOf_toString honest.exact,
    Option.bind_eq_bind, Option.bind_some]

/-- The hash that is fetched is the one of the state, and it is fetched if its header is there. -/
theorem fetchAppHash_eq {node : Rpc.Node} {state : Multistore} {height : ℕ} {appHash : Binary}
    (honest : Honest lib node state height appHash) :
  HeaderShown node height ∧ fetchAppHash node (some height) = some appHash ∨
    ¬ HeaderShown node height ∧ fetchAppHash node (some height) = none
  := by
  cases hfetch : fetchAppHash node (some height) with
  | some hash =>
      rw [fetchAppHash, Option.bind_some] at hfetch
      obtain ⟨attempt, hmem, hattempt⟩ := List.exists_of_findSome?_eq_some hfetch
      obtain ⟨text, htext, rfl⟩ := Option.map_eq_some_iff.mp hattempt
      obtain ⟨htext, hne⟩ := Option.filter_eq_some_iff.mp htext
      have hne : text ≠ "" := by simpa using hne
      left
      use ⟨attempt, List.mem_range.mp hmem, text, htext, hne⟩
      rw [hexToBytes, Explorer.hexToBytes_eq (honest.header attempt text htext hne)]
  | none =>
      rw [fetchAppHash, Option.bind_some, List.findSome?_eq_none_iff] at hfetch
      right
      refine ⟨?_, rfl⟩
      rintro ⟨attempt, hlt, text, htext, hne⟩
      have hnone := hfetch attempt (List.mem_range.mpr hlt)
      simp [htext, hne] at hnone

/-! ### Processing with an honest node -/

section Processing

variable {node : Rpc.Node} {accepts : SubmitMsg → Bool} {state : Multistore} {height : ℕ}
  {appHash : Binary} {sub : Subscription}

theorem processSubscription_of_absent (honest : Honest lib node state height appHash)
    (hkey : sub.watchKey ≠ []) (h : state.shown "wasm" sub.watchKey = none) :
  processSubscription node accepts (wire sub) = [.note .check, .note .check]
  := by
  simp only [processSubscription, wire, toBase64_eq_empty_iff, if_neg hkey, fromBase64_toBase64,
    fetchStateWithProof_of_absent honest h]

/-- The watcher evaluates the condition on the value in the store `wasm`, and if it holds there
submits the proof from that store. -/
theorem processSubscription_of_present (honest : Honest lib node state height appHash)
    (hkey : sub.watchKey ≠ []) {value : Binary}
    (h : state.shown "wasm" sub.watchKey = some value) :
  ∃ iavl simple, Proven lib appHash "wasm" sub.watchKey value iavl simple ∧
    ask node "wasm" sub.watchKey = answer "wasm" sub.watchKey value height iavl simple ∧
    processSubscription node accepts (wire sub)
      = .note .check :: .evaluate sub.condition.toWire value ::
        if checkCondition sub.condition.toWire value = false then [.note .check]
        else .note .conditionMet :: submission node accepts (wire sub) ⟨sub.watchKey, value,
          some height, [⟨"ics23:iavl", iavl⟩, ⟨"ics23:simple", simple⟩]⟩
  := by
  obtain ⟨iavl, simple, hproven, hask, hfetch⟩ := fetchStateWithProof_of_present honest h
  refine ⟨iavl, simple, hproven, hask, ?_⟩
  simp only [processSubscription, wire, toBase64_eq_empty_iff, if_neg hkey, fromBase64_toBase64,
    hfetch]
  rfl

/-- A submission sends a message exactly if the header is there. -/
theorem mem_submission_iff (honest : Honest lib node state height appHash)
    {wired : WireSubscription} {key value : Binary} {proofOps : List Rpc.ProofOp}
    {msg : SubmitMsg} :
  .submit msg ∈ submission node accepts wired ⟨key, value, some height, proofOps⟩
    ↔ HeaderShown node height ∧ msg = ⟨wired.id, neutronRevisionNumber, some height,
        toBase64 appHash, toBase64 (buildMerkleProof proofOps), toBase64 key, toBase64 value⟩
  := by
  rcases fetchAppHash_eq honest with ⟨hshown, hfetch⟩ | ⟨hshown, hfetch⟩
  · simp [submission, hfetch, hshown]
  · simp [submission, hfetch, hshown]

theorem evaluate_not_mem_submission {wired : WireSubscription} {proof : StateProof}
    {condition : WireCondition} {value : Binary} :
  .evaluate condition value ∉ submission node accepts wired proof
  := by
  rw [submission]
  split <;> simp

/-- What is evaluated is the value in the store `wasm`. -/
theorem mem_evaluate_iff (accepts : SubmitMsg → Bool)
    (honest : Honest lib node state height appHash) (hkey : sub.watchKey ≠ [])
    {condition : WireCondition} {value : Binary} :
  .evaluate condition value ∈ processSubscription node accepts (wire sub)
    ↔ condition = sub.condition.toWire ∧ state.shown "wasm" sub.watchKey = some value
  := by
  cases h : state.shown "wasm" sub.watchKey with
  | none => simp [processSubscription_of_absent honest hkey h]
  | some shown =>
      obtain ⟨iavl, simple, -, -, hprocess⟩ := processSubscription_of_present honest hkey h
      rw [hprocess]
      split <;> simp [evaluate_not_mem_submission, eq_comm]

/-- What is submitted is the proof from the store `wasm`, if something is due there. -/
theorem mem_submit_iff (accepts : SubmitMsg → Bool)
    (honest : Honest lib node state height appHash) (hkey : sub.watchKey ≠ []) {msg : SubmitMsg} :
  .submit msg ∈ processSubscription node accepts (wire sub)
    ↔ Due node state height sub "wasm" ∧
      ∃ value iavl simple, state.shown "wasm" sub.watchKey = some value ∧
        Proven lib appHash "wasm" sub.watchKey value iavl simple ∧
        ask node "wasm" sub.watchKey = answer "wasm" sub.watchKey value height iavl simple ∧
        msg = ⟨sub.id, neutronRevisionNumber, some height, toBase64 appHash,
          toBase64 (buildMerkleProof [⟨"ics23:iavl", iavl⟩, ⟨"ics23:simple", simple⟩]),
          toBase64 sub.watchKey, toBase64 value⟩
  := by
  cases h : state.shown "wasm" sub.watchKey with
  | none => simp [processSubscription_of_absent honest hkey h, Due, h]
  | some value =>
      obtain ⟨iavl, simple, hproven, hask, hprocess⟩ :=
        processSubscription_of_present honest hkey h
      rw [hprocess]
      split
      case isTrue hunmet => simp [Due, h, hunmet]
      case isFalse hmet =>
        rw [Bool.not_eq_false] at hmet
        simp only [List.mem_cons, reduceCtorEq, false_or, mem_submission_iff honest]
        constructor
        · rintro ⟨hshown, rfl⟩
          exact ⟨⟨⟨value, h, hmet⟩, hshown⟩, value, iavl, simple, rfl, hproven, hask, rfl⟩
        · rintro ⟨⟨-, hshown⟩, value', iavl', simple', heq, -, hask', rfl⟩
          obtain rfl := Option.some.inj heq
          -- the node gives one answer, with the steps of one proof
          have hops := proofOpsOf_answer "wasm" sub.watchKey value height iavl simple
          rw [← hask, hask', proofOpsOf_answer, Option.some.injEq] at hops
          rw [hops]
          exact ⟨hshown, rfl⟩

end Processing

/-! ### Proofs -/

/-- The contract finds the steps of an honest proof in what they are wrapped into. -/
theorem Proven.decode (hlib : ReadsWireFormat lib) {appHash : Binary} {store : String}
    {key value iavl simple : Binary} (h : Proven lib appHash store key value iavl simple) :
  lib.decodeMerkleProof (buildMerkleProof [⟨"ics23:iavl", iavl⟩, ⟨"ics23:simple", simple⟩])
    = .ok [iavl, simple]
  := by
  obtain ⟨hiavl, hsimple, -⟩ := h
  apply decodeMerkleProof_buildMerkleProof hlib
  intro op hop
  rcases List.mem_pair.mp hop with rfl | rfl
  · apply hiavl
  · apply hsimple

/-- The contract accepts what the steps of an honest proof are wrapped into. -/
theorem Proven.chained (hlib : ReadsWireFormat lib) {appHash : Binary} {store : String}
    {key value iavl simple : Binary} (h : Proven lib appHash store key value iavl simple) :
  Chained lib appHash
    (buildMerkleProof [⟨"ics23:iavl", iavl⟩, ⟨"ics23:simple", simple⟩]) store key value
  := by
  have hproofs := h.decode hlib
  obtain ⟨-, -, hp, hq, he, -, hr, hvalue, hroot⟩ := h
  apply Chained.intro hproofs hp hq he hr hvalue hroot

/-- The second step of a proof tells the store. -/
theorem Proven.store_unique (hkey : OneKey lib) {appHash : Binary} {store store' : String}
    {key value iavl key' value' iavl' simple : Binary}
    (h : Proven lib appHash store key value iavl simple)
    (h' : Proven lib appHash store' key' value' iavl' simple) :
  store = store'
  := by
  obtain ⟨-, -, -, hq, -, he, -, -, hroot⟩ := h
  obtain ⟨-, -, -, hq', -, -, -, -, hroot'⟩ := h'
  obtain rfl := Except.ok.inj (hq.symm.trans hq')
  have hname := hkey _ _ _ _ _ _ _ _ (by simp [he]) hroot hroot'
  apply String.toList_inj.mp (Utf8.encode_injective hname)

/-! ### The store of a subscription -/

section Subscription

variable {node : Rpc.Node} {accepts : SubmitMsg → Bool} {state : Multistore} {height : ℕ}
  {appHash : Binary} {sub : Subscription}

/-- The watcher proves the store `wasm` where that is subscribed. -/
theorem provesStore_wasm (hlib : ReadsWireFormat lib)
    (honest : Honest lib node state height appHash) (hne : sub.watchKey ≠ []) {path : List String}
    (hpath : sub.keyPath = "wasm" :: path) :
  ProvesStore lib node accepts state height sub "wasm"
  where
  evaluated _ _ hmem := (mem_evaluate_iff _ honest hne).mp hmem
  submitted msg hmem := by
    obtain ⟨-, value, iavl, simple, hshown, hproven, hask, rfl⟩ :=
      (mem_submit_iff _ honest hne).mp hmem
    constructor
    · use rfl, ⟨value, hshown, rfl⟩
      rw [hask]
      exact ⟨_, proofOpsOf_answer .., rfl⟩
    · refine ⟨appHash, _, sub.watchKey, value, ofBase64_toBase64 _, ofBase64_toBase64 _,
        ofBase64_toBase64 _, ofBase64_toBase64 _, rfl, rfl, ?_⟩
      rw [hpath]
      apply (hproven.chained hlib).verify
  due hdue := by
    obtain ⟨value, hshown, -⟩ := hdue.1
    obtain ⟨iavl, simple, hproven, hask⟩ := honest.present _ _ _ hshown
    exact ⟨_, (mem_submit_iff _ honest hne).mpr
      ⟨hdue, value, iavl, simple, hshown, hproven, hask, rfl⟩⟩
  absent hnone msg hmem := by
    obtain ⟨-, value, -, -, hshown, -⟩ := (mem_submit_iff _ honest hne).mp hmem
    simp [hnone] at hshown

/-- Where nothing is due and nothing else is shown, there is nothing to prove. -/
theorem provesStore_of_not_due (honest : Honest lib node state height appHash)
    (hne : sub.watchKey ≠ []) {store : String}
    (hshown : state.shown "wasm" sub.watchKey = none ∨
      state.shown "wasm" sub.watchKey = state.shown store sub.watchKey)
    (hdue : ¬ Due node state height sub store) :
  ProvesStore lib node accepts state height sub store
  := by
  have hnot (msg : SubmitMsg) :
      .submit msg ∉ processSubscription node accepts (wire sub) := by
    intro hmem
    obtain ⟨⟨⟨value, hvalue, hmet⟩, hheader⟩, -⟩ := (mem_submit_iff _ honest hne).mp hmem
    rcases hshown with hshown | hshown
    · simp [hshown] at hvalue
    · apply hdue ⟨⟨value, hshown ▸ hvalue, hmet⟩, hheader⟩
  constructor
  case evaluated =>
    intro condition value hmem
    obtain ⟨hcondition, hvalue⟩ := (mem_evaluate_iff _ honest hne).mp hmem
    use hcondition
    rcases hshown with hshown | hshown
    · simp [hshown] at hvalue
    · rw [← hshown, hvalue]
  case submitted =>
    intro msg hmem
    exact absurd hmem (hnot msg)
  case due =>
    intro h
    exact absurd h hdue
  case absent =>
    intro _ msg
    apply hnot msg

/-- Where the watcher evaluates the condition on a value, the store must show it. -/
theorem ProvesStore.shown {store : String}
    (h : ProvesStore lib node accepts state height sub store)
    (honest : Honest lib node state height appHash) (hne : sub.watchKey ≠ []) :
  state.shown "wasm" sub.watchKey = none ∨
    state.shown "wasm" sub.watchKey = state.shown store sub.watchKey
  := by
  cases hvalue : state.shown "wasm" sub.watchKey with
  | none => exact .inl rfl
  | some value =>
      right
      have hmem := (mem_evaluate_iff accepts honest hne).mpr ⟨rfl, hvalue⟩
      rw [(h.evaluated _ _ hmem).2]

/-- Where something is due, the watcher does prove a store only if that is `wasm`. -/
theorem ProvesStore.eq_wasm (hlib : ReadsWireFormat lib) (hkey : OneKey lib) {store : String}
    (h : ProvesStore lib node accepts state height sub store)
    (honest : Honest lib node state height appHash) (hne : sub.watchKey ≠ [])
    (hdue : Due node state height sub store) :
  store = "wasm"
  := by
  obtain ⟨msg, hmem⟩ := h.due hdue
  obtain ⟨⟨-, -, proofOps, hops, hproof⟩, -⟩ := h.submitted msg hmem
  obtain ⟨-, _, iavl, simple, -, hproven, -, rfl⟩ := (mem_submit_iff _ honest hne).mp hmem
  obtain ⟨value', hvalue', -⟩ := hdue.1
  obtain ⟨iavl', simple', hproven', hask'⟩ := honest.present _ _ _ hvalue'
  rw [hask', proofOpsOf_answer, Option.some.injEq] at hops
  subst hops
  -- one message has the steps of both proofs
  have hmessage : buildMerkleProof [⟨"ics23:iavl", iavl⟩, ⟨"ics23:simple", simple⟩]
      = buildMerkleProof [⟨"ics23:iavl", iavl'⟩, ⟨"ics23:simple", simple'⟩] := by
    have := congrArg ofBase64 hproof
    simpa using this
  have hentries := hproven.decode hlib
  rw [hmessage, hproven'.decode hlib] at hentries
  obtain ⟨-, rfl⟩ : iavl' = iavl ∧ simple' = simple := by simpa using hentries
  apply hproven'.store_unique hkey hproven

end Subscription

/-- **The watcher proves the store `wasm`.** Take a subscription to a key of a store, in any
storage that is reachable, and an honest node that serves any state. What the watcher evaluates
and submits is that of the store of the subscription, and it submits something where something is
due, if and only if that store is `wasm`, or `wasm` shows no value of the key or the same one, and
nothing is due. -/
theorem provesStore_iff (hlib : ReadsWireFormat lib) (hkey : OneKey lib) {s : Storage}
    (hs : Reachable lib s) {id : ℕ} {sub : Subscription} (hload : s.load id = some sub)
    {store : String} {path : List String} (hpath : sub.keyPath = store :: path)
    {node : Rpc.Node} {state : Multistore} {height : ℕ} {appHash : Binary}
    (honest : Honest lib node state height appHash) (accepts : SubmitMsg → Bool) :
  ProvesStore lib node accepts state height sub store
    ↔ store = "wasm" ∨
      (state.shown "wasm" sub.watchKey = none ∨
        state.shown "wasm" sub.watchKey = state.shown store sub.watchKey) ∧
      ¬ Due node state height sub store
  := by
  have hne : sub.watchKey ≠ [] := ((sound_of_reachable hs).wellFormed hload).watchKey_ne
  constructor
  · intro h
    by_cases hdue : Due node state height sub store
    · exact .inl (h.eq_wasm hlib hkey honest hne hdue)
    · exact .inr ⟨h.shown honest hne, hdue⟩
  · rintro (rfl | ⟨hshown, hdue⟩)
    · apply provesStore_wasm hlib honest hne hpath
    · apply provesStore_of_not_due honest hne hshown hdue

/-! ### A key in one store -/

/-- A state in which only the store `wasm` has the key `01`. -/
def sampleState : Multistore := fun store key =>
  if store = "wasm" ∧ key = [1] then some [0x37] else none

/-- A node that serves it at height 100. -/
def sampleNode : Rpc.Node where
  abciQuery path data :=
    if path = "store/wasm/key" ∧ data = "0x01" then
      answer "wasm" [1] [0x37] 100 sampleIavl sampleSimple
    else ⟨"", none, "100", none⟩
  appHash height _ :=
    if height = 101 then some (String.ofList (Hex.encode sampleAppHash)) else none

theorem ask_injective {store store' : String} {key key' : Binary}
    (hpath : "store/" ++ store ++ "/key" = "store/" ++ store' ++ "/key")
    (hdata : "0x" ++ String.ofList (Hex.encode key) = "0x" ++ String.ofList (Hex.encode key')) :
  store = store' ∧ key = key'
  := by
  constructor
  · have h := congrArg String.toList hpath
    simp only [String.toList_append] at h
    apply String.toList_inj.mp (List.append_cancel_left (List.append_cancel_right h))
  · have h := congrArg String.toList hdata
    simp only [String.toList_append, String.toList_ofList] at h
    have hdecode := congrArg Hex.decode? (List.append_cancel_left h)
    rw [Hex.decode?_encode, Hex.decode?_encode] at hdecode
    apply Option.some.inj hdecode

theorem sample_oneKey :
  OneKey wireLibraries
  := by
  intro p spec root root' key key' value value' _ h h'
  cases p <;> cases spec <;> simp_all [wireLibraries, Libraries.sample]

theorem shown_sampleState {store : String} {key value : Binary} :
  sampleState.shown store key = some value ↔ (store = "wasm" ∧ key = [1]) ∧ [0x37] = value
  := by
  rw [Multistore.shown, sampleState]
  by_cases h : store = "wasm" ∧ key = [1]
  · simp [h, Option.filter]
  · simp [h]

theorem sample_proven :
  Proven wireLibraries sampleAppHash "wasm" [1] [0x37] sampleIavl sampleSimple
  := by
  have hp : wireLibraries.decodeCommitmentProof sampleIavl = .ok ProofSpec.iavl := rfl
  have hq : wireLibraries.decodeCommitmentProof sampleSimple = .ok ProofSpec.tendermint := rfl
  apply Proven.intro (by decide) (by decide) hp hq rfl rfl rfl (by decide) (by decide)

theorem sampleNode_honest :
  Honest wireLibraries sampleNode sampleState 100 sampleAppHash
  where
  exact := by decide
  absent store key h := by
    left
    have hne : ¬ (store = "wasm" ∧ key = [1]) := by
      intro hkey
      rw [shown_sampleState.mpr ⟨hkey, rfl⟩] at h
      contradiction
    rw [ask, sampleNode]
    dsimp only
    rw [if_neg]
    rintro ⟨hpath, hdata⟩
    apply hne (ask_injective hpath hdata)
  present store key value h := by
    obtain ⟨⟨rfl, rfl⟩, rfl⟩ := shown_sampleState.mp h
    exact ⟨sampleIavl, sampleSimple, sample_proven, rfl⟩
  header attempt text h _ := by
    obtain rfl := Option.some.inj h
    rw [String.toList_ofList, Hex.decode?_encode]

theorem provesStore_iff_sample :
  ProvesStore wireLibraries sampleNode (fun _ => true) sampleState 100 sampleSubscribed "wasm"
  := by
  have hload : (committed wireLibraries [sampleSubscription]).load 1 = some sampleSubscribed := by
    decide
  apply (provesStore_iff wireLibraries_readsWireFormat sample_oneKey
    (reachable_committed wireLibraries [sampleSubscription]) hload rfl sampleNode_honest _).mpr
  exact .inl rfl

/-- A subscription to the same key in another store. -/
def bankSubscribed : Subscription :=
  { sampleSubscribed with keyPath := ["bank"] }

/-- The transaction that makes it. -/
def bankSubscription : Tx :=
  .message ⟨10⟩
    ⟨⟨"alice"⟩, .subscribe "07-tendermint-42" ["bank"] [1] (.equals [0x37]) "callback" [] none⟩
    (fun _ => .succeed) (fun _ => "")

/-- No proof from the store `wasm` is accepted for the store `bank`. -/
theorem not_chained_bank {key value : Binary} :
  ¬ Chained wireLibraries sampleAppHash
    (buildMerkleProof [⟨"ics23:iavl", sampleIavl⟩, ⟨"ics23:simple", sampleSimple⟩]) "bank" key value
  := by
  rintro ⟨hproofs, -, hq, -, -, -, hroot⟩
  have hentries := sample_proven.decode wireLibraries_readsWireFormat
  rw [hproofs, Except.ok.injEq, List.cons.injEq, List.cons.injEq] at hentries
  obtain ⟨-, rfl, -⟩ := hentries
  obtain rfl := Except.ok.inj hq
  have hwasm : wireLibraries.verifyMembership ProofSpec.tendermint .tendermint sampleAppHash
      (utf8 "wasm") sampleModuleRoot = true := by decide
  have hname := sample_oneKey _ _ _ _ _ _ _ _ (Option.some_ne_none _) hroot hwasm
  have hne : Utf8.encode "bank".toList ≠ utf8 "wasm" := by decide
  apply hne hname

/-- For a subscription to the store `bank`, which does not have the key, the watcher evaluates the
condition on the value in the store `wasm`, and submits the proof from there, which the contract
does not accept. -/
theorem bankSubscribed_proves_wasm :
  (committed wireLibraries [bankSubscription]).load 1 = some bankSubscribed ∧
    bankSubscribed.status = .active ∧ bankSubscribed.keyPath = ["bank"] ∧
    Honest wireLibraries sampleNode sampleState 100 sampleAppHash ∧
    sampleState.shown "bank" [1] = none ∧
    .evaluate (.equals "Nw==") [0x37]
      ∈ processSubscription sampleNode (fun _ => true) (wire bankSubscribed) ∧
    (∃ msg, .submit msg ∈ processSubscription sampleNode (fun _ => true) (wire bankSubscribed) ∧
      ¬ Passes wireLibraries bankSubscribed msg) ∧
    ¬ ProvesStore wireLibraries sampleNode (fun _ => true) sampleState 100 bankSubscribed "bank"
  := by
  have hload : (committed wireLibraries [bankSubscription]).load 1 = some bankSubscribed := by
    decide
  have hne : bankSubscribed.watchKey ≠ [] := by decide
  have hwasm : sampleState.shown "wasm" [1] = some [0x37] := shown_sampleState.mpr ⟨⟨rfl, rfl⟩, rfl⟩
  have hbank : sampleState.shown "bank" [1] = none := rfl
  have hask :
      ask sampleNode "wasm" [1] = answer "wasm" [1] [0x37] 100 sampleIavl sampleSimple := rfl
  have hdue : Due sampleNode sampleState 100 bankSubscribed "wasm" :=
    ⟨⟨[0x37], hwasm, by decide +kernel⟩, 0, by decide, _, rfl, by decide +kernel⟩
  have hsubmit := (mem_submit_iff (fun _ => true) sampleNode_honest hne).mpr
    ⟨hdue, [0x37], sampleIavl, sampleSimple, hwasm, sample_proven, hask, rfl⟩
  refine ⟨hload, rfl, rfl, sampleNode_honest, hbank, ?_, ⟨_, hsubmit, ?_⟩, ?_⟩
  · apply (mem_evaluate_iff _ sampleNode_honest hne).mpr ⟨?_, hwasm⟩
    decide +kernel
  · rintro ⟨appHash, proof, key, value, happHash, hproof, -, -, -, -, hverify⟩
    rw [ofBase64_toBase64, Option.some.injEq] at happHash hproof
    subst happHash hproof
    apply not_chained_bank (chained_of_verify hverify)
  · intro h
    apply h.absent hbank _ hsubmit

end Watcher
