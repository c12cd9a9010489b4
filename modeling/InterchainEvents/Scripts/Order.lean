import InterchainEvents.Scripts.Flow

/-!
# The order of the test flow

What the script does to others is to open a wallet, to write an attestation, to execute messages,
and to show events at the end. Its arguments decide what it sets out to do (`planOf`), and it does
that in its order, each step after the one before has succeeded, whatever is answered; where a step
fails, it exits and does nothing else (`main_keeps`).
-/

namespace Scripts.Flow

open Shared Async
open Watcher.Tasks (Failure)

/-! ### Signals -/

/-- What the script does to others, and which of it has succeeded. -/
inductive Signal where
  | opens (mnemonic chainName : String)
  | attests (id : Flag) (status : String)
  | attested
  | executes (msg : HubMsg)
  | executed (result : ExecuteResult)
  | shows (events : List ProofCallback.Event)
  | exits (code : ℕ)
  deriving DecidableEq

/-- The signal in an observation, if it is one. -/
def signal : Seen → Option Signal
  | .asked (.fromMnemonic mnemonic chainName) => some (.opens mnemonic chainName)
  | .asked (.attest _ id status) => some (.attests id status)
  | .got (.attest _ _ _) (.ok _) => some .attested
  | .asked (.execute _ msg) => some (.executes msg)
  | .got (.execute _ _) (.ok result) => some (.executed result)
  | .did (.print (.events events)) => some (.shows events)
  | .did (.exit code) => some (.exits code)
  | _ => none

/-- The signals of the script. -/
def signals (l : List Seen) : List Signal :=
  l.filterMap signal

@[simp]
theorem signals_nil :
  signals [] = []
  := rfl

@[simp]
theorem signals_cons (o : Seen) (l : List Seen) :
  signals (o :: l) = (signal o).toList ++ signals l
  := by
  rw [signals, List.filterMap_cons]
  cases signal o with
  | none => rfl
  | some x => rfl

@[simp]
theorem signals_append (l l' : List Seen) :
  signals (l ++ l') = signals l ++ signals l'
  := List.filterMap_append

/-! ### Plans -/

/-- What the script sets out to do. -/
inductive Plan where
  | refuse
  | query
  | submit (mnemonicHub : String) (subscriptionId : Option ℤ) (attestationId : Flag)
  | flow (mnemonicHub mnemonicNeutron clientId : String) (attestationId : Flag)

/-- The plan that the arguments and the environment make. -/
def planOf (flags : Flags) (env : ProcessEnv) : Plan :=
  let attestationId := flags.getOr "attestation-id" "cosmos1abc"
  if flags.get "query-only" = some .present then .query
  else
    match firstTruthy env.mnemonicHub env.mnemonic with
    | none => .refuse
    | some mnemonicHub =>
        if flags.get "submit-proof" = some .present then
          .submit mnemonicHub (integerOf (flags.getOr "subscription-id" "1").toText) attestationId
        else
          match firstTruthy env.mnemonicNeutron env.mnemonic,
              flags.getOr "client-id" neutronLightClientId with
          | some mnemonicNeutron, .text clientId =>
              if "07-tendermint-".toList.isPrefixOf clientId.toList = true then
                .flow mnemonicHub mnemonicNeutron clientId attestationId
              else .refuse
          | _, _ => .refuse

/-- What the script learns on its way: how its subscription was created, what it submits and how
that was accepted, and the events in the end. -/
structure Course where
  created : ExecuteResult
  msg : SubmitProofMsg
  accepted : ExecuteResult
  events : List ProofCallback.Event
  deriving Inhabited

/-- A proof is submitted, and the events are shown. -/
def submitSteps (mnemonicHub : String) (c : Course) : List Signal :=
  [.opens mnemonicHub "cosmos", .executes (.submitProof c.msg), .executed c.accepted,
    .shows c.events]

/-- An attestation is written, and a subscription created. -/
def subscribeSteps (mnemonicHub mnemonicNeutron clientId : String) (attestationId : Flag)
    (c : Course) : List Signal :=
  [.opens mnemonicNeutron "neutron", .attests attestationId "approved", .attested,
    .opens mnemonicHub "cosmos", .executes (.subscribe (subscribeMsg clientId attestationId)),
    .executed c.created]

/-- The steps of a plan. -/
def Plan.steps : Plan → Course → List Signal
  | .refuse, _ => [.exits 1]
  | .query, c => [.shows c.events]
  | .submit mnemonicHub _ _, c => submitSteps mnemonicHub c
  | .flow mnemonicHub mnemonicNeutron clientId attestationId, c =>
      subscribeSteps mnemonicHub mnemonicNeutron clientId attestationId c
        ++ submitSteps mnemonicHub c

/-- The subscription that a plan submits a proof for, and the attestation that this is about. -/
def Plan.target : Plan → Course → Option (Option ℤ × Flag)
  | .refuse, _ => none
  | .query, _ => none
  | .submit _ subscriptionId attestationId, _ => some (subscriptionId, attestationId)
  | .flow _ _ _ attestationId, c => some (subscriptionIdOf c.created, attestationId)

/-! ### Evidence -/

section Evidence

variable (fromBase64 : String → Except Failure Binary)

/-- A node has shown a proof for an attestation. -/
def ShownProof (l : List Seen) (attestationId : Flag) (proof : ProofResult) : Prop :=
  let iavlKey := buildAttestationIavlKey attestationId.toText.toList
  ∃ result, .got (.abciQuery "store/wasm/key" ("0x" ++ String.ofList (bytesToHex iavlKey)) none)
      (.ok result) ∈ l ∧ readAnswer fromBase64 result = .ok proof

/-- A node has shown the hash of the application after a height. -/
def ShownHash (l : List Seen) (height : Option ℤ) (appHash : Binary) : Prop :=
  ∃ text, .got (.block (height.map (· + 1))) (.ok (some text)) ∈ l ∧ text ≠ "" ∧
    appHash = hexToBytes text.toList

/-- A proof encoded with a hash that a node has shown. -/
def EncodedWith (l : List Seen) (proof : ProofResult) (encoded : EncodedProof) : Prop :=
  ∃ appHash, ShownHash l proof.height appHash ∧ encoded = ⟨toBase64 appHash,
    toBase64 (buildMerkleProof proof.proofOps), toBase64 proof.key, toBase64 proof.value⟩

/-- The message carries what nodes have shown for an attestation. -/
def Carries (l : List Seen) (subscriptionId : Option ℤ) (attestationId : Flag)
    (msg : SubmitProofMsg) : Prop :=
  ∃ proof encoded, ShownProof fromBase64 l attestationId proof ∧ EncodedWith l proof encoded ∧
    msg = submitProofMsg subscriptionId proof.height encoded

/-- A proof is submitted only for this subscription, with what nodes have shown for the attestation,
and only those events are shown that were answered. -/
structure Evidence (l : List Seen) (target : Option (Option ℤ × Flag)) (c : Course) : Prop where
  carries : .executes (.submitProof c.msg) ∈ signals l →
    ∃ t ∈ target, Carries fromBase64 l t.1 t.2 c.msg
  answered : .shows c.events ∈ signals l → .got .getEvents (.ok c.events) ∈ l

/-- Some steps of a plan have been made, and no other. -/
def Keeps (plan : Plan) (l : List Seen) : Prop :=
  ∃ c, Evidence fromBase64 l (plan.target c) c ∧ signals l <+: plan.steps c

/-- Some steps have been made, and then the script has exited. -/
def Breaks (plan : Plan) (l : List Seen) : Prop :=
  ∃ c p, Evidence fromBase64 l (plan.target c) c ∧ p <+: plan.steps c ∧
    signals l = p ++ [.exits 1]

/-- All steps have been made. -/
def Completes (plan : Plan) (l : List Seen) : Prop :=
  ∃ c, Evidence fromBase64 l (plan.target c) c ∧ signals l = plan.steps c

end Evidence

variable {fromBase64 : String → Except Failure Binary} {s : State}

theorem ShownProof.mono {l l' : List Seen} (hsub : l ⊆ l') {attestationId : Flag}
    {proof : ProofResult} (h : ShownProof fromBase64 l attestationId proof) :
  ShownProof fromBase64 l' attestationId proof
  := by
  obtain ⟨result, hmem, hread⟩ := h
  exact ⟨result, hsub hmem, hread⟩

theorem EncodedWith.mono {l l' : List Seen} (hsub : l ⊆ l') {proof : ProofResult}
    {encoded : EncodedProof} (h : EncodedWith l proof encoded) :
  EncodedWith l' proof encoded
  := by
  obtain ⟨appHash, ⟨text, hmem, hne⟩, hencoded⟩ := h
  exact ⟨appHash, ⟨text, hsub hmem, hne⟩, hencoded⟩

theorem Carries.mono {l l' : List Seen} (hsub : l ⊆ l') {subscriptionId : Option ℤ}
    {attestationId : Flag} {msg : SubmitProofMsg}
    (h : Carries fromBase64 l subscriptionId attestationId msg) :
  Carries fromBase64 l' subscriptionId attestationId msg
  := by
  obtain ⟨proof, encoded, hproof, hencoded, hmsg⟩ := h
  exact ⟨proof, encoded, hproof.mono hsub, hencoded.mono hsub, hmsg⟩

/-! ### The functions -/

/-- The proof that is fetched was shown. -/
theorem upholds_fetchStateWithProof (attestationId : Flag) :
  Upholds apply (fun l => signals l = [])
    (fun proof l _ => signals l = [] ∧ ShownProof fromBase64 l attestationId proof)
    (fun _ l _ => signals l = [])
    (fetchStateWithProof fromBase64
      (String.ofList (bytesToHex (buildAttestationIavlKey attestationId.toText.toList))) none) [] s
  := by
  apply upholds_bind.mpr
  apply upholds_request.mpr
  simp only [List.nil_append]
  refine ⟨rfl, fun s' => ⟨fun result => ⟨rfl, ?_⟩, fun e => ⟨rfl, rfl⟩⟩⟩
  apply upholds_fromExcept.mpr
  refine ⟨fun proof hproof => ⟨rfl, result, List.mem_pair.mpr (.inr rfl), hproof⟩, fun e _ => rfl⟩

/-- To sleep is no signal. -/
theorem upholds_sleep (ms : ℕ) :
  Upholds apply (fun l => signals l = []) (fun (_ : Unit) l _ => signals l = [])
    (fun _ l _ => signals l = []) (await (.sleep ms)) [] s
  := by
  refine ⟨rfl, ?_⟩
  rintro (e | a) s'
  · exact ⟨rfl, rfl⟩
  · exact ⟨rfl, rfl⟩

/-- The hash that is fetched was shown. -/
theorem upholds_fetchAppHash (height : Option ℤ) :
  Upholds apply (fun l => signals l = [])
    (fun appHash l _ => signals l = [] ∧ ShownHash l height appHash) (fun _ l _ => signals l = [])
    (fetchAppHash height) [] s
  := by
  apply upholds_bind.mpr
  apply upholds_retry (I := fun l => signals l = [])
  case hI => rfl
  case hgiveUp => exact fun l s hl => hl
  case hask =>
      intro l s hl
      simp only [upholds_bind, upholds_request, upholds_pure]
      simp only [signals_append, hl, signals_cons, signal]
      refine ⟨rfl, fun s' => ⟨fun text => ⟨rfl, ?_, ?_⟩, fun e => ⟨rfl, rfl⟩⟩⟩
      · intro text' htext
        obtain ⟨rfl, hne⟩ := Option.filter_eq_some_iff.mp htext
        refine ⟨rfl, text', ?_, by simpa using hne, rfl⟩
        simp
      · intro _
        apply (upholds_sleep 2000).framed
        · intro l' hl'
          simp [hl, hl', signal]
        · intro _ l' _ hl'
          simp [hl, hl', signal]
        · intro _ l' _ hl'
          simp [hl, hl', signal]

/-- The proof is encoded with a hash that was shown. -/
theorem upholds_encodeProofForContract (proof : ProofResult) :
  Upholds apply (fun l => signals l = [])
    (fun encoded l _ => signals l = [] ∧ EncodedWith l proof encoded) (fun _ l _ => signals l = [])
    (encodeProofForContract proof) [] s
  := by
  apply upholds_bind.mpr
  apply (upholds_fetchAppHash proof.height).mono
  · rintro appHash l s' ⟨hl, hhash⟩
    exact ⟨hl, appHash, hhash, rfl⟩
  · exact fun _ _ _ hl => hl

/-- The wallet is opened. -/
theorem upholds_getSigningClient (chain : Chain) (chainName mnemonic : String) :
  Upholds apply (fun l => signals l = [.opens mnemonic chainName])
    (fun _ l _ => signals l = [.opens mnemonic chainName])
    (fun _ l _ => signals l = [.opens mnemonic chainName])
    (getSigningClient chain chainName mnemonic) [] s
  := by
  simp only [getSigningClient, upholds_bind, upholds_request, upholds_fromExcept]
  simp [signal]

/-- The attestation is written. -/
theorem upholds_writeAttestation (mnemonic : String) (id : Flag) (status : String) :
  Upholds apply
    (fun l => signals l <+: [.opens mnemonic "neutron", .attests id status, .attested])
    (fun _ l _ => signals l = [.opens mnemonic "neutron", .attests id status, .attested])
    (fun _ l _ => signals l <+: [.opens mnemonic "neutron", .attests id status, .attested])
    (writeAttestation mnemonic id status) [] s
  := by
  apply upholds_bind.mpr
  apply (upholds_getSigningClient .neutron "neutron" mnemonic).framed
  · intro l hl
    simp [hl]
  · intro address l s' hl
    simp only [upholds_bind, upholds_request, upholds_act, upholds_pure]
    simp [hl, signal]
  · intro e l s' hl
    simp [hl]

/-- A subscription is created, with the number that its transaction shows. -/
theorem upholds_createSubscription (mnemonic clientId : String) (id : Flag) :
  Upholds apply
    (fun l => ∃ result, signals l <+: [.opens mnemonic "cosmos",
      .executes (.subscribe (subscribeMsg clientId id)), .executed result])
    (fun subscriptionId l _ => ∃ result, subscriptionId = subscriptionIdOf result ∧
      signals l = [.opens mnemonic "cosmos", .executes (.subscribe (subscribeMsg clientId id)),
        .executed result])
    (fun _ l _ => ∃ result, signals l <+: [.opens mnemonic "cosmos",
      .executes (.subscribe (subscribeMsg clientId id)), .executed result])
    (createSubscription mnemonic clientId id) [] s
  := by
  apply upholds_bind.mpr
  apply (upholds_getSigningClient .hub "cosmos" mnemonic).framed
  · intro l hl
    use default
    simp [hl]
  · intro address l s' hl
    simp only [upholds_bind, upholds_request, upholds_pure]
    simp [hl, signal]
  · intro e l s' hl
    use default
    simp [hl]

/-- A proof is submitted, which carries what was shown. -/
theorem upholds_submitProof (mnemonic : String) (subscriptionId : Option ℤ) (id : Flag) :
  Upholds apply
    (fun l => signals l = [] ∨ ∃ msg result, Carries fromBase64 l subscriptionId id msg ∧
      signals l <+: [.opens mnemonic "cosmos", .executes (.submitProof msg), .executed result])
    (fun _ l _ => ∃ msg result, Carries fromBase64 l subscriptionId id msg ∧
      signals l = [.opens mnemonic "cosmos", .executes (.submitProof msg), .executed result])
    (fun _ l _ => signals l = [] ∨ ∃ msg result, Carries fromBase64 l subscriptionId id msg ∧
      signals l <+: [.opens mnemonic "cosmos", .executes (.submitProof msg), .executed result])
    (submitProof fromBase64 mnemonic subscriptionId id none) [] s
  := by
  apply upholds_bind.mpr
  apply (upholds_fetchStateWithProof id).framed
  · exact fun l hl => .inl hl
  case hE => exact fun _ l _ hl => .inl hl
  rintro proof l s' ⟨hl, hproof⟩
  apply upholds_bind.mpr
  apply (upholds_encodeProofForContract proof).framed
  · intro l' hl'
    simp [hl, hl']
  case hE =>
    intro _ l' _ hl'
    simp [hl, hl']
  rintro encoded l' s'' ⟨hl', hencoded⟩
  -- the message is known before the wallet is opened
  let msg := submitProofMsg subscriptionId proof.height encoded
  have hcarries (l'' : List Seen) : Carries fromBase64 (l ++ (l' ++ l'')) subscriptionId id msg :=
    ⟨proof, encoded, hproof.mono (List.subset_append_left _ _), hencoded.mono (by simp), rfl⟩
  apply upholds_bind.mpr
  apply (upholds_getSigningClient .hub "cosmos" mnemonic).framed
  · intro l'' hl''
    refine .inr ⟨msg, default, ?_, ?_⟩
    · simpa using hcarries l''
    · simp [hl, hl', hl'']
  case hE =>
    intro _ l'' _ hl''
    refine .inr ⟨msg, default, ?_, ?_⟩
    · simpa using hcarries l''
    · simp [hl, hl', hl'']
  rintro address l'' s'' hl''
  simp only [upholds_bind, upholds_request, upholds_pure]
  simp [hl, hl', hl'', signal, hcarries, msg]

/-- The events that are shown are those that were answered. -/
theorem upholds_queryCallbackEvents :
  Upholds apply
    (fun l => signals l = [] ∨
      ∃ events, .got .getEvents (.ok events) ∈ l ∧ signals l = [.shows events])
    (fun _ l _ => ∃ events, .got .getEvents (.ok events) ∈ l ∧ signals l = [.shows events])
    (fun _ l _ => signals l = [])
    queryCallbackEvents [] s
  := by
  simp only [queryCallbackEvents, upholds_bind, upholds_request, upholds_act, upholds_pure]
  simp [signal]

/-- Looking for an attestation is no signal. -/
theorem upholds_queryAttestation (id : Flag) :
  Upholds apply (fun l => signals l = []) (fun _ l _ => signals l = [])
    (fun _ l _ => signals l = []) (queryAttestation id) [] s
  := by
  simp only [queryAttestation, upholds_bind, upholds_handle, upholds_request, upholds_act,
    upholds_pure]
  simp [signal]

/-- Looking for a subscription is no signal. -/
theorem upholds_querySubscription (id : Option ℤ) :
  Upholds apply (fun l => signals l = []) (fun _ l _ => signals l = [])
    (fun _ l _ => signals l = []) (querySubscription id) [] s
  := by
  simp only [querySubscription, upholds_bind, upholds_request, upholds_act, upholds_pure]
  simp [signal]

/-! ### The plans -/

theorem Evidence.of_quiet {l : List Seen} {c : Course} (target : Option (Option ℤ × Flag))
    (hsubmit : ∀ msg, .executes (.submitProof msg) ∉ signals l)
    (hshow : ∀ events, .shows events ∉ signals l) :
  Evidence fromBase64 l target c
  := ⟨fun h => absurd h (hsubmit _), fun h => absurd h (hshow _)⟩

/-- Evidence stays after whatever was observed before that is none of its signals. -/
theorem Evidence.append {h l : List Seen} {c c' : Course} {target : Option (Option ℤ × Flag)}
    (hevidence : Evidence fromBase64 l target c)
    (hsubmit : ∀ msg, .executes (.submitProof msg) ∉ signals h)
    (hshow : ∀ events, .shows events ∉ signals h) (hmsg : c'.msg = c.msg)
    (hevents : c'.events = c.events) :
  Evidence fromBase64 (h ++ l) target c'
  := by
  constructor
  · intro hmem
    rw [signals_append, hmsg] at hmem
    obtain ⟨t, ht, hcarries⟩ :=
      hevidence.carries ((List.mem_append.mp hmem).resolve_left (hsubmit _))
    rw [hmsg]
    exact ⟨t, ht, hcarries.mono (List.subset_append_right h l)⟩
  · intro hmem
    rw [signals_append, hevents] at hmem
    rw [hevents]
    apply List.mem_append_right
    apply hevidence.answered ((List.mem_append.mp hmem).resolve_left (hshow _))

/-- Evidence stays when more is observed that is none of its signals. -/
theorem Evidence.extend {l l' : List Seen} {c : Course} {target : Option (Option ℤ × Flag)}
    (hevidence : Evidence fromBase64 l target c)
    (hsubmit : ∀ msg, .executes (.submitProof msg) ∉ signals l')
    (hshow : ∀ events, .shows events ∉ signals l') :
  Evidence fromBase64 (l ++ l') target c
  := by
  constructor
  · intro hmem
    rw [signals_append] at hmem
    obtain ⟨t, ht, hcarries⟩ :=
      hevidence.carries ((List.mem_append.mp hmem).resolve_right (hsubmit _))
    exact ⟨t, ht, hcarries.mono (List.subset_append_left l l')⟩
  · intro hmem
    rw [signals_append] at hmem
    apply List.mem_append_left
    apply hevidence.answered ((List.mem_append.mp hmem).resolve_right (hshow _))

theorem keeps_of_quiet {l : List Seen} (plan : Plan) (hl : signals l = []) :
  Keeps fromBase64 plan l
  := by
  refine ⟨default, .of_quiet _ ?_ ?_, ?_⟩ <;> simp [hl]

theorem Completes.keeps {plan : Plan} {l : List Seen} (hl : Completes fromBase64 plan l) :
  Keeps fromBase64 plan l
  := by
  obtain ⟨c, hc, hl⟩ := hl
  refine ⟨c, hc, ?_⟩
  rewrite [hl]
  apply List.prefix_refl

theorem Keeps.append_quiet {plan : Plan} {h l : List Seen} (hl : Keeps fromBase64 plan l)
    (hh : signals h = []) :
  Keeps fromBase64 plan (h ++ l)
  := by
  obtain ⟨c, hc, hl⟩ := hl
  refine ⟨c, hc.append ?_ ?_ rfl rfl, ?_⟩ <;> simp [hh, hl]

theorem Completes.append_quiet {plan : Plan} {h l : List Seen} (hl : Completes fromBase64 plan l)
    (hh : signals h = []) :
  Completes fromBase64 plan (h ++ l)
  := by
  obtain ⟨c, hc, hl⟩ := hl
  refine ⟨c, hc.append ?_ ?_ rfl rfl, ?_⟩ <;> simp [hh, hl]

/-- A proof is submitted, and then the events are shown. -/
theorem upholds_submitSteps (mnemonic : String) (subscriptionId : Option ℤ) (id : Flag) :
  Upholds apply
    (fun l => ∃ c, Evidence fromBase64 l (some (subscriptionId, id)) c ∧
      signals l <+: submitSteps mnemonic c)
    (fun _ l _ => ∃ c, Evidence fromBase64 l (some (subscriptionId, id)) c ∧
      signals l = submitSteps mnemonic c)
    (fun _ l _ => ∃ c, Evidence fromBase64 l (some (subscriptionId, id)) c ∧
      signals l <+: submitSteps mnemonic c)
    (do
      submitProof fromBase64 mnemonic subscriptionId id none
      let _ ← queryCallbackEvents
      pure ()) [] s
  := by
  have hbegun (l : List Seen) (hl : signals l = [] ∨
      ∃ msg result, Carries fromBase64 l subscriptionId id msg ∧ signals l <+:
        [.opens mnemonic "cosmos", .executes (.submitProof msg), .executed result]) :
      ∃ c, Evidence fromBase64 l (some (subscriptionId, id)) c ∧
        signals l <+: submitSteps mnemonic c := by
    rcases hl with hl | ⟨msg, result, hcarries, hl⟩
    · refine ⟨default, .of_quiet _ ?_ ?_, ?_⟩ <;> simp [hl]
    · refine ⟨⟨default, msg, result, []⟩, ⟨fun _ => ⟨_, rfl, hcarries⟩, fun hmem => ?_⟩, ?_⟩
      · simpa using hl.subset hmem
      · apply hl.trans (List.prefix_append _ [_])
  apply upholds_bind.mpr
  apply (upholds_submitProof mnemonic subscriptionId id).framed
  case hG => exact hbegun
  case hE => exact fun _ l _ => hbegun l
  rintro _ l s' ⟨msg, result, hcarries, hl⟩
  have hevidence (l' : List Seen) (events : List ProofCallback.Event)
      (hanswered : .shows events ∈ signals l' → .got .getEvents (.ok events) ∈ l') :
      Evidence fromBase64 (l ++ l') (some (subscriptionId, id))
        ⟨default, msg, result, events⟩ := by
    refine ⟨fun _ => ⟨_, rfl, hcarries.mono (List.subset_append_left l l')⟩, fun hmem => ?_⟩
    rw [signals_append, hl] at hmem
    apply List.mem_append_right
    apply hanswered
    simpa using hmem
  apply upholds_bind.mpr
  apply upholds_queryCallbackEvents.framed
  case hG =>
    rintro l' (hl' | ⟨events, hanswered, hl'⟩)
    · exact ⟨_, hevidence l' [] (by simp [hl']), by simp [hl, hl', submitSteps]⟩
    · exact ⟨_, hevidence l' events fun _ => hanswered, by simp [hl, hl', submitSteps]⟩
  case hE =>
    intro _ l' _ hl'
    exact ⟨_, hevidence l' [] (by simp [hl']), by simp [hl, hl', submitSteps]⟩
  rintro _ l' _ ⟨events, hanswered, hl'⟩
  exact ⟨_, hevidence l' events fun _ => hanswered, by simp [hl, hl', submitSteps]⟩

section Flow

variable {mnemonicHub mnemonicNeutron clientId : String} {id : Flag} {l l' : List Seen}
  {result : ExecuteResult}

/-- The first steps of the full flow submit nothing and show nothing. -/
theorem quiet_of_subscribeSteps {c : Course}
    (hl : signals l <+: subscribeSteps mnemonicHub mnemonicNeutron clientId id c) :
  (∀ msg, .executes (.submitProof msg) ∉ signals l) ∧ ∀ events, .shows events ∉ signals l
  := by
  constructor
  · intro msg hmem
    simpa [subscribeSteps] using hl.subset hmem
  · intro events hmem
    simpa [subscribeSteps] using hl.subset hmem

theorem keeps_of_subscribeSteps {c : Course}
    (hl : signals l <+: subscribeSteps mnemonicHub mnemonicNeutron clientId id c) :
  Keeps fromBase64 (.flow mnemonicHub mnemonicNeutron clientId id) l
  := by
  obtain ⟨hsubmit, hshow⟩ := quiet_of_subscribeSteps hl
  exact ⟨c, .of_quiet _ hsubmit hshow, hl.trans (List.prefix_append _ _)⟩

/-- What is submitted after a subscription was created is for this subscription. -/
theorem Evidence.subscribed {c₀ c : Course}
    (hl : signals l = subscribeSteps mnemonicHub mnemonicNeutron clientId id c₀)
    (hc : Evidence fromBase64 l' (some (subscriptionIdOf c₀.created, id)) c) :
  Evidence fromBase64 (l ++ l') (some (subscriptionIdOf c₀.created, id))
    { c with created := c₀.created }
  := by
  have hall : signals l <+: subscribeSteps mnemonicHub mnemonicNeutron clientId id c₀ := by
    rewrite [hl]
    apply List.prefix_refl
  obtain ⟨hsubmit, hshow⟩ := quiet_of_subscribeSteps hall
  exact hc.append hsubmit hshow rfl rfl

theorem keeps_subscribed {c₀ : Course}
    (hl : signals l = subscribeSteps mnemonicHub mnemonicNeutron clientId id c₀)
    (hl' : ∃ c, Evidence fromBase64 l' (some (subscriptionIdOf c₀.created, id)) c ∧
      signals l' <+: submitSteps mnemonicHub c) :
  Keeps fromBase64 (.flow mnemonicHub mnemonicNeutron clientId id) (l ++ l')
  := by
  obtain ⟨c, hc, hl'⟩ := hl'
  refine ⟨{ c with created := c₀.created }, hc.subscribed hl, ?_⟩
  rw [signals_append, hl]
  apply (List.prefix_append_right_inj _).mpr hl'

theorem completes_subscribed {c₀ : Course}
    (hl : signals l = subscribeSteps mnemonicHub mnemonicNeutron clientId id c₀)
    (hl' : ∃ c, Evidence fromBase64 l' (some (subscriptionIdOf c₀.created, id)) c ∧
      signals l' = submitSteps mnemonicHub c) :
  Completes fromBase64 (.flow mnemonicHub mnemonicNeutron clientId id) (l ++ l')
  := by
  obtain ⟨c, hc, hl'⟩ := hl'
  refine ⟨{ c with created := c₀.created }, hc.subscribed hl, ?_⟩
  rw [signals_append, hl, hl']
  rfl

variable (mnemonicHub mnemonicNeutron clientId id)

/-- The full flow goes through its steps. -/
theorem upholds_fullFlow :
  Upholds apply (Keeps fromBase64 (.flow mnemonicHub mnemonicNeutron clientId id))
    (fun _ l _ => Completes fromBase64 (.flow mnemonicHub mnemonicNeutron clientId id) l)
    (fun _ l _ => Keeps fromBase64 (.flow mnemonicHub mnemonicNeutron clientId id) l)
    (fullFlow fromBase64 mnemonicHub mnemonicNeutron clientId id) [] s
  := by
  -- the attestation is written
  have hattest (l : List Seen) (hl : signals l <+:
      [.opens mnemonicNeutron "neutron", .attests id "approved", .attested]) :
      Keeps fromBase64 (.flow mnemonicHub mnemonicNeutron clientId id) l :=
    keeps_of_subscribeSteps (c := default) (hl.trans (List.prefix_append _ [_, _, _]))
  apply upholds_bind.mpr
  apply (upholds_writeAttestation mnemonicNeutron id "approved").framed
  case hG => exact hattest
  case hE => exact fun _ l _ => hattest l
  rintro _ l s₁ hl
  -- the subscription is created
  have hsubscribe (l' : List Seen) (hl' : ∃ result, signals l' <+: [.opens mnemonicHub "cosmos",
      .executes (.subscribe (subscribeMsg clientId id)), .executed result]) :
      Keeps fromBase64 (.flow mnemonicHub mnemonicNeutron clientId id) (l ++ l') := by
    obtain ⟨result, hl'⟩ := hl'
    apply keeps_of_subscribeSteps (c := ⟨result, default, default, []⟩)
    rw [signals_append, hl]
    apply (List.prefix_append_right_inj _).mpr hl'
  apply upholds_bind.mpr
  apply (upholds_createSubscription mnemonicHub clientId id).framed
  case hG => exact hsubscribe
  case hE => exact fun _ l' _ => hsubscribe l'
  rintro _ l' s₂ ⟨result, rfl, hl'⟩
  -- ten seconds pass
  have hslept (o : List Seen) (ho : signals o = []) :
      signals (l ++ l' ++ o) = subscribeSteps mnemonicHub mnemonicNeutron clientId id
        ⟨result, default, default, []⟩ := by
    rw [signals_append, signals_append, hl, hl', ho]
    rfl
  have hpause (o : List Seen) (ho : signals o = []) :
      Keeps fromBase64 (.flow mnemonicHub mnemonicNeutron clientId id) (l ++ l' ++ o) := by
    apply keeps_of_subscribeSteps (c := ⟨result, default, default, []⟩)
    rewrite [hslept o ho]
    apply List.prefix_refl
  apply upholds_bind.mpr
  apply (upholds_sleep 10000).framed
  case hG => exact hpause
  case hE => exact fun _ o _ => hpause o
  rintro _ o s₃ ho
  -- a proof is submitted, and the events are shown
  apply (upholds_submitSteps mnemonicHub (subscriptionIdOf result) id).framed
  case hG => exact fun l₂ => keeps_subscribed (hslept o ho)
  case hE => exact fun _ l₂ _ => keeps_subscribed (hslept o ho)
  exact fun _ l₂ _ => completes_subscribed (hslept o ho)

end Flow

/-- A proof is submitted for a subscription that exists. -/
theorem upholds_submitMode (mnemonic : String) (flags : Flags) (id : Flag) :
  let plan : Plan := .submit mnemonic (integerOf (flags.getOr "subscription-id" "1").toText) id
  Upholds apply (Keeps fromBase64 plan) (fun _ l _ => Completes fromBase64 plan l)
    (fun _ l _ => Keeps fromBase64 plan l) (submitMode fromBase64 mnemonic flags id) [] s
  := by
  intro plan
  apply upholds_bind.mpr
  apply (upholds_queryAttestation id).framed
  case hG => exact fun l => keeps_of_quiet plan
  case hE => exact fun _ l _ => keeps_of_quiet plan
  rintro _ l s' hl
  apply (upholds_submitSteps mnemonic _ id).framed
  case hG => exact fun l' (hl' : Keeps fromBase64 plan l') => hl'.append_quiet hl
  case hE => exact fun _ l' _ (hl' : Keeps fromBase64 plan l') => hl'.append_quiet hl
  exact fun _ l' _ (hl' : Completes fromBase64 plan l') => hl'.append_quiet hl

/-- Everything is queried, and nothing else is done. -/
theorem upholds_queryMode (flags : Flags) (id : Flag) :
  Upholds apply (Keeps fromBase64 .query) (fun _ l _ => Completes fromBase64 .query l)
    (fun _ l _ => Keeps fromBase64 .query l) (queryMode flags id) [] s
  := by
  have hquiet (l : List Seen) (hl : signals l = []) : Keeps fromBase64 .query l :=
    keeps_of_quiet .query hl
  apply upholds_bind.mpr
  apply (upholds_queryAttestation id).framed
  case hG => exact hquiet
  case hE => exact fun _ l _ => hquiet l
  rintro _ l s' hl
  -- the subscription, if it is found
  have hfound : Upholds apply (fun l => signals l = []) (fun _ l _ => signals l = [])
      (fun _ l _ => signals l = [])
      ((do
        let _ ← querySubscription (integerOf (flags.getOr "subscription-id" "1").toText)
        pure ()).handle fun _ => perform (.print (.subscriptionNotFound
          (integerOf (flags.getOr "subscription-id" "1").toText)))) [] s' := by
    apply upholds_handle.mpr
    apply upholds_bind.mpr
    apply (upholds_querySubscription _).mono
    · exact fun _ _ _ hl => hl
    · intro _ l _ hl
      apply upholds_act.mpr
      simp [hl, signal]
  apply upholds_bind.mpr
  apply hfound.framed
  case hG => exact fun l' hl' => (keeps_of_quiet .query hl').append_quiet hl
  case hE => exact fun _ l' _ hl' => (keeps_of_quiet .query hl').append_quiet hl
  rintro _ l' s'' hl'
  have hquiet' : signals (l ++ l') = [] := by
    rw [signals_append, hl, hl', List.append_nil]
  -- the events
  have hcompletes (o : List Seen) (ho : ∃ events, .got .getEvents (.ok events) ∈ o ∧
      signals o = [.shows events]) : Completes fromBase64 .query o := by
    obtain ⟨events, hanswered, ho⟩ := ho
    refine ⟨⟨default, default, default, events⟩, ⟨fun hmem => ?_, fun _ => hanswered⟩, ho⟩
    simp [ho] at hmem
  apply upholds_bind.mpr
  apply upholds_queryCallbackEvents.framed
  case hG =>
    rintro o (ho | ho)
    · exact (keeps_of_quiet .query ho).append_quiet hquiet'
    · exact (hcompletes o ho).keeps.append_quiet hquiet'
  case hE => exact fun _ o _ ho => (keeps_of_quiet .query ho).append_quiet hquiet'
  exact fun _ o _ ho => (hcompletes o ho).append_quiet hquiet'

/-! ### The script -/

/-- The script refuses: it shows errors, and exits. -/
theorem upholds_exitWith (errors : List String) :
  Upholds apply (Keeps fromBase64 .refuse) (fun _ l _ => Completes fromBase64 .refuse l)
    (fun _ l _ => Keeps fromBase64 .refuse l) (exitWith errors) [] s
  := by
  have hshown : Upholds apply (Keeps fromBase64 .refuse) (fun _ l _ => signals l = [])
      (fun _ l _ => Keeps fromBase64 .refuse l) (forEach errors consoleError) [] s := by
    apply upholds_forEach (I := fun _ l => signals l = []) rfl
    intro x rest l s' hl
    apply upholds_act.mpr
    have hprinted : signals (l ++ [.did (.print (.error (Json.str x)))]) = [] := by
      simp [hl, signal]
    exact ⟨keeps_of_quiet .refuse hprinted, hprinted⟩
  apply upholds_bind.mpr
  apply hshown.mono
  case hE => exact fun _ _ _ hl => hl
  rintro _ l s' hl
  have hexited : Completes fromBase64 .refuse (l ++ [.did (.exit 1)]) := by
    refine ⟨default, .of_quiet _ ?_ ?_, ?_⟩ <;> simp [hl, signal, Plan.steps]
  exact ⟨hexited.keeps, hexited⟩

/-- The script does what its arguments say. -/
theorem upholds_run (flags : Flags) (env : ProcessEnv) :
  Upholds apply (Keeps fromBase64 (planOf flags env))
    (fun _ l _ => Completes fromBase64 (planOf flags env) l)
    (fun _ l _ => Keeps fromBase64 (planOf flags env) l) (run fromBase64 flags env) [] s
  := by
  rw [run, planOf]
  split_ifs with hquery hsubmit
  · apply upholds_queryMode
  · cases hhub : firstTruthy env.mnemonicHub env.mnemonic with
    | none => apply upholds_exitWith
    | some mnemonicHub => apply upholds_submitMode
  · cases hhub : firstTruthy env.mnemonicHub env.mnemonic with
    | none => apply upholds_exitWith
    | some mnemonicHub =>
        cases hneutron : firstTruthy env.mnemonicNeutron env.mnemonic with
        | none => apply upholds_exitWith
        | some mnemonicNeutron =>
            cases hclient : flags.getOr "client-id" neutronLightClientId with
            | present => exact keeps_of_quiet .refuse rfl
            | text clientId =>
                dsimp only [checkedFlow]
                cases htendermint : "07-tendermint-".toList.isPrefixOf clientId.toList with
                | false => apply upholds_exitWith
                | true => apply upholds_fullFlow

/-- What is observed of the script: it has made some steps of its plan, and may have exited then;
and in the end it has made all of them, or exited. -/
theorem upholds_main (args : List String) (env : ProcessEnv) :
  let plan := planOf (parseArgs args) env
  Upholds apply (fun l => Keeps fromBase64 plan l ∨ Breaks fromBase64 plan l)
    (fun _ l _ => Completes fromBase64 plan l ∨ Breaks fromBase64 plan l) (fun _ _ _ => False)
    (main fromBase64 args env) [] s
  := by
  intro plan
  apply upholds_handle.mpr
  apply (upholds_run (parseArgs args) env).framed
  · exact fun l hl => .inl hl
  · exact fun _ l _ hl => .inl hl
  rintro e l s' ⟨c, hc, hl⟩
  -- the error is shown, and the script exits
  let line : Line := .error (Json.str "\nFatal error: " ++ e.text)
  have hbroken : Breaks fromBase64 plan (l ++ [.did (.print line)] ++ [.did (.exit 1)]) := by
    rw [List.append_assoc]
    refine ⟨c, signals l, hc.extend ?_ ?_, hl, ?_⟩ <;> simp [line, signal]
  have hshown : Keeps fromBase64 plan (l ++ [.did (.print line)]) := by
    refine ⟨c, hc.extend ?_ ?_, ?_⟩
    · simp [line, signal]
    · simp [line, signal]
    · simpa [line, signal] using hl
  exact ⟨.inl hshown, .inr hbroken, .inr hbroken⟩

/-- **The script keeps to its plan.** Its arguments decide what it sets out to do. Whatever is
answered to its requests, what it has done at any time are the first steps of this plan, in their
order and each of them once, possibly followed by an exit; what it submits is for the subscription
of the plan, and carries what nodes have shown before; and it ends with all steps done, or with an
exit, and never with an exception. -/
theorem main_keeps {args : List String} {env : ProcessEnv} {l : List Seen} {q : Program Unit}
    (hafter : After apply (main fromBase64 args env) s l q) :
  let plan := planOf (parseArgs args) env
  (Keeps fromBase64 plan l ∨ Breaks fromBase64 plan l) ∧
    (q = .done () → Completes fromBase64 plan l ∨ Breaks fromBase64 plan l) ∧
    ∀ e, q ≠ .fail e
  := by
  intro plan
  obtain ⟨hl, hdone, hfail⟩ := (upholds_main args env).after
    (.inl (keeps_of_quiet plan rfl)) hafter
  refine ⟨hl l (List.prefix_refl l), fun hq => ?_, fun e hq => ?_⟩
  · obtain ⟨s', hcompletes⟩ := hdone () hq
    apply hcompletes
  · obtain ⟨s', hfalse⟩ := hfail e hq
    apply hfalse

/-! ### A sample -/

/-- Answers with which the full flow succeeds. -/
def sampleAnswer : (req : Request) → Except Failure (Response req)
  | .fromMnemonic _ _ => .ok ()
  | .getAccounts => .ok ["account"]
  | .connectWithSigner _ => .ok ()
  | .connect _ => .ok ()
  | .attest _ _ _ => .ok ⟨"01", 8, []⟩
  | .execute _ (.subscribe _) => .ok ⟨"02", 20, [("subscription_id", "7")]⟩
  | .execute _ (.submitProof _) => .ok ⟨"03", 21, []⟩
  | .getAttestation _ => .ok ⟨"kyc", "approved", "account", 8⟩
  | .getSubscription _ => .error (.ofMessage "subscription not found")
  | .getEvents => .ok [⟨interchainEventsAddress, 21⟩]
  | .abciQuery _ _ _ => .ok ⟨⟨"AQ==", some "Ag==", "11", some [⟨"ics23:iavl", "AQ==", "Aw=="⟩]⟩,
      none, none⟩
  | .block _ => .ok (some "ab")
  | .sleep _ => .ok ()

/-- What the script learns from them. -/
def sampleCourse : Course where
  created := ⟨"02", 20, [("subscription_id", "7")]⟩
  msg := submitProofMsg (some 7) (some 11)
    ⟨toBase64 [0xAB], toBase64 (buildMerkleProof [⟨"ics23:iavl", [3]⟩]), "AQ==", "Ag=="⟩
  accepted := ⟨"03", 21, []⟩
  events := [⟨interchainEventsAddress, 21⟩]

/-- The plan of the full flow. -/
def samplePlan : Plan :=
  .flow "secret" "secret" "07-tendermint-1119" (.text "kyc")

/-- Where the full flow ends with these answers, and what is observed of it. -/
def sampleRun : Program Unit × List Seen :=
  answered apply sampleAnswer
    (main sampleBase64 ["--attestation-id=kyc"] ⟨none, none, some "secret"⟩) .initial

theorem signals_sampleRun :
  signals sampleRun.2 = samplePlan.steps sampleCourse
  := by decide +kernel

theorem isDone_sampleRun :
  sampleRun.1.isDone = true
  := by decide +kernel

/-- With these answers the full flow goes through all its steps. -/
theorem main_keeps_sample :
  ∃ l, signals l = samplePlan.steps sampleCourse ∧ Completes sampleBase64 samplePlan l
  := by
  have hkeeps := main_keeps (after_answered sampleAnswer
    (main sampleBase64 ["--attestation-id=kyc"] ⟨none, none, some "secret"⟩) .initial)
  refine ⟨sampleRun.2, signals_sampleRun, ?_⟩
  apply (hkeeps.2.1 (eq_done_of_isDone isDone_sampleRun)).resolve_right
  rintro ⟨c, q, -, -, hsignals⟩
  have hlast := congrArg List.getLast? (signals_sampleRun.symm.trans hsignals)
  rw [List.getLast?_append] at hlast
  cases hlast

end Scripts.Flow
