import InterchainEvents.Watcher.Alike
import InterchainEvents.Watcher.Chains

/-!
# What a poll settles

A poll submits proofs for subscriptions while the chains go on. Here is what it achieves between an
honest node and the hub: when it is done, every subscription it was to see, whose condition held of
the value all the while, is settled on the hub, triggered or failed, by the poll or by anyone else
(`poll_settles`).

An attempt to fetch a hash waits two seconds after each of ten attempts, so that a block that is
made at most 18 seconds after the one before is not missed (`achieves_attemptAppHash`).
-/

namespace Watcher.Tasks

open Shared Async Hub Relation

variable {lib : Libraries} {remote : Remote} {s : State} {w : Chains}

/-! ### Fetching -/

/-- The watcher reads an answer as it does when it waits for none. -/
theorem readAnswer_eq [Host] (node : Rpc.Node) (iavlKeyHex : List Char) :
  Watcher.fetchStateWithProof node iavlKeyHex
    = (readAnswer (node.abciQuery "store/wasm/key" ("0x" ++ String.ofList iavlKeyHex))).toOption
  := by
  simp only [Watcher.fetchStateWithProof, readAnswer]
  generalize node.abciQuery "store/wasm/key" ("0x" ++ String.ofList iavlKeyHex) = result
  cases result.value with
  | none => rfl
  | some value =>
      dsimp only
      split
      · rfl
      cases fromBase64 result.key with
      | none => rfl
      | some key =>
          cases fromBase64 value with
          | none => rfl
          | some value =>
              simp only [proofOpsOf]
              cases result.proofOps with
              | none => rfl
              | some ops =>
                  simp only [orThrow, Bind.bind, Option.bind, Except.bind]
                  cases ops.mapM fun op =>
                      (fromBase64 op.data).map fun data => (⟨op.type, data⟩ : Rpc.ProofOp) with
                  | none => rfl
                  | some proofOps => rfl

/-- What was fetched for a key is what a state shows that was the latest one at some time since the
query. -/
inductive Fetched (lib : Libraries) (remote : Remote) (key : Binary) (asked w : Chains) :
    Option StateProof → Prop
  | none {height} : remote.madeAt height ≤ w.time → asked.time < remote.madeAt (height + 1) →
      (remote.state height).shown "wasm" key = .none → Fetched lib remote key asked w .none
  | some {height value iavl simple} : remote.madeAt height ≤ w.time →
      asked.time < remote.madeAt (height + 1) →
      (remote.state height).shown "wasm" key = .some value →
      Proven lib (remote.appHash height) "wasm" key value iavl simple →
      Fetched lib remote key asked w (.some ⟨key, value, .some height,
        [⟨"ics23:iavl", iavl⟩, ⟨"ics23:simple", simple⟩]⟩)

theorem readAnswer_of_fetch [Host] {node : Rpc.Node} {iavlKeyHex : List Char}
    {proof : Option StateProof} (h : Watcher.fetchStateWithProof node iavlKeyHex = some proof) :
  readAnswer (node.abciQuery "store/wasm/key" ("0x" ++ String.ofList iavlKeyHex)) = .ok proof
  := by
  rw [readAnswer_eq] at h
  cases hread : readAnswer (node.abciQuery "store/wasm/key" ("0x" ++ String.ofList iavlKeyHex)) with
  | error e => simp [hread, Except.toOption] at h
  | ok proof' => simpa [hread, Except.toOption] using h

/-- The value of a key is fetched. -/
theorem achieves_fetchStateWithProof [Host] (key : Binary) :
  Achieves (world lib remote) apply
    (fun proof _ w' => w.Changes lib w' ∧ Fetched lib remote key w w' proof) (fun _ _ _ => False)
    (fetchStateWithProof (String.ofList (bytesToHex key))) s w
  := by
  apply achieves_bind.mpr
  apply achieves_request.mpr
  intro answer w₁ w₂ s' hw₁ hserves
  cases hserves with
  | @query _ _ _ _ node height hmade hlatest honest =>
      refine ⟨?_, by simp⟩
      rintro result ⟨⟩
      apply achieves_fromExcept.mpr
      cases hshown : (remote.state height).shown "wasm" key with
      | none =>
          rw [readAnswer_of_fetch (fetchStateWithProof_of_absent honest hshown)]
          refine ⟨?_, by simp⟩
          rintro proof ⟨⟩
          exact ⟨hw₁, .none hmade hlatest hshown⟩
      | some value =>
          obtain ⟨iavl, simple, hproven, -, hfetch⟩ := fetchStateWithProof_of_present honest hshown
          rw [readAnswer_of_fetch hfetch]
          refine ⟨?_, by simp⟩
          rintro proof ⟨⟩
          exact ⟨hw₁, .some hmade hlatest hshown hproven⟩

/-- An attempt fetches the hash, or the next block is not there when it is asked for, and another
attempt is made two seconds later. -/
theorem achieves_attempt {height attempts : ℕ} {Q : Binary → State → Chains → Prop}
    {E : Failure → State → Chains → Prop}
    (hQ : ∀ s' w', w.Changes lib w' → Q (remote.appHash height) s' w')
    (hretry : w.time < remote.madeAt (height + 1) → ∀ s' w', w.Changes lib w' →
      w.time + 2000 ≤ w'.time →
      Achieves (world lib remote) apply Q E (attemptAppHash (some height) attempts) s' w') :
  Achieves (world lib remote) apply Q E (attemptAppHash (some height) (attempts + 1)) s w
  := by
  apply achieves_bind.mpr
  apply achieves_request.mpr
  intro answer w₁ w₂ s₂ hw₁ hserves
  cases hserves with
  | @block _ text _ _ hmade hne hdecode =>
      refine ⟨?_, by simp⟩
      rintro answer ⟨⟩
      have hfilter : (some text).filter (· ≠ "") = some text := by simp [hne]
      simp only [hfilter]
      rw [hexToBytes, Explorer.hexToBytes_eq hdecode]
      apply hQ s₂ w₁ hw₁
  | noBlock hmissing =>
      refine ⟨?_, by simp⟩
      rintro answer ⟨⟩
      apply achieves_bind.mpr
      apply achieves_request.mpr
      intro answer w₃ w₄ s₄ hw₃ hserves
      cases hserves with
      | sleep hslept =>
          refine ⟨?_, by simp⟩
          rintro answer ⟨⟩
          apply hretry hmissing s₄ w₃ (hw₁.trans hw₃)
          have hle := hw₁.time_le
          omega
  | noHeight hnone =>
      have hnatural : ((height : ℤ) + 1).toNat? = some (height + 1) := Int.mem_toNat?.mpr rfl
      simp [hnatural] at hnone

/-- The hash of the application is fetched, if the next block is made before the last attempt. -/
theorem achieves_attemptAppHash {height : ℕ} (attempts : ℕ)
    (htime : remote.madeAt (height + 1) ≤ w.time + 2000 * attempts) :
  Achieves (world lib remote) apply
    (fun appHash _ w' => w.Changes lib w' ∧ appHash = remote.appHash height) (fun _ _ _ => False)
    (attemptAppHash (some height) (attempts + 1)) s w
  := by
  induction attempts generalizing w s with
  | zero =>
      apply achieves_attempt fun s' w' hw' => ⟨hw', rfl⟩
      intro hmissing
      omega
  | succ attempts ih =>
      apply achieves_attempt fun s' w' hw' => ⟨hw', rfl⟩
      intro _ s' w' hw' hle
      apply (ih (by omega)).mono
      · rintro appHash s'' w'' ⟨hw'', hhash⟩
        exact ⟨hw'.trans hw'', hhash⟩
      · exact fun _ _ _ hfalse => hfalse

/-! ### Submitting -/

/-- A request that is always answered. -/
theorem achieves_answered {req : Request} {P : Response req → Prop}
    (hanswer : ∀ {asked answer w w'}, Serves lib remote req asked answer w w' →
      ∃ a, answer = .ok a ∧ P a) :
  Achieves (world lib remote) apply (fun a _ w' => w.Changes lib w' ∧ P a) (fun _ _ _ => False)
    (await req) s w
  := by
  apply achieves_request.mpr
  intro answer w₁ w₂ s' hw₁ hserves
  obtain ⟨a, rfl, ha⟩ := hanswer hserves
  refine ⟨?_, by simp⟩
  rintro a' ⟨⟩
  exact ⟨hw₁.trans hserves.changes, ha⟩

/-- The world is not later than a given one. -/
def Chains.Before (w limit : Chains) : Prop :=
  w.time ≤ limit.time ∧ w.hubHeight ≤ limit.hubHeight

/-- The subscription is settled, if it is not too late. -/
def SettledBefore (limit : Chains) (id : ℕ) (w : Chains) : Prop :=
  w.Before limit → w.hub.Settled id

theorem Chains.Changes.before {w' limit : Chains} (h : w.Changes lib w')
    (hlimit : w'.Before limit) :
  w.Before limit
  := ⟨h.time_le.trans hlimit.1, h.hubHeight_le.trans hlimit.2⟩

/-- What is settled in time stays so. -/
theorem SettledBefore.changes {w' limit : Chains} {id : ℕ} (hsettled : SettledBefore limit id w)
    (hw : w.hub.Sound) (h : w.Changes lib w') :
  SettledBefore limit id w'
  := fun hlimit => h.settled hw (hsettled (h.before hlimit))

/-- JavaScript writes the number of a subscription digit by digit, if it holds it exactly. -/
theorem numberText_literal {id : ℕ} (hid : id < 2 ^ 53) :
  Js.numberText (Js.literal (SerdeJson.Number.posInt id).literal)
    = (SerdeJson.Number.posInt id).text
  := by
  have hvalue : Json.value10 (SerdeJson.Number.posInt id).literal.int < 2 ^ 53 := by
    rw [SerdeJson.Number.literal, SerdeJson.value10_digitsOf]
    apply hid
  obtain ⟨n, hn, htext⟩ : SameDecimal (fun _ => none) (SerdeJson.Number.posInt id).literal :=
    sameDecimal_of_lt rfl rfl hvalue fun h => absurd h Bool.false_ne_true
  rw [SerdeJson.number_literal _ (hid.trans (by decide))] at hn
  cases hn
  exact htext.symm

/-- The contract reads this number. -/
theorem readId_number {id : ℕ} (hid : id < 2 ^ 53) :
  readId (number id) = some id
  := by
  rw [number, readId, numberText_literal hid, SerdeJson.parse_number_text (n := .posInt id) nofun,
    Option.bind_some, readU64, SerdeJson.number_literal _ (hid.trans (by decide))]

/-- It reads the number of every subscription that is listed for the watcher: these are the first
100, whose numbers are small. -/
theorem readId_listed {hub : Storage} (hsound : hub.Sound) {sub : Subscription}
    (h : sub ∈ queryListSubscriptions hub none (some 100)) :
  readId (number sub.id) = some sub.id
  := by
  rw [queryListSubscriptions_100] at h
  obtain ⟨⟨id, sub⟩, hmem, rfl⟩ := List.mem_map.mp h
  obtain ⟨hload, hid⟩ := (Storage.mem_take_toList_iff hsound).mp hmem
  apply readId_number
  rw [(hsound.wellFormed hload).id_eq]
  omega

/-- The message of a submission can be read. -/
theorem messageOf_submitMsg {id : ℕ} (hid : id < 2 ^ 53) (height : ℕ) (key value : Binary)
    (proofOps : List Rpc.ProofOp) (appHash : Binary) :
  messageOf (submitMsg (number id) ⟨key, value, some height, proofOps⟩ appHash)
    = some (.submitProof id ⟨neutronRevisionNumber, height⟩ appHash (buildMerkleProof proofOps) key
        value)
  := by
  have hheight : (height : ℤ).toNat? = some height := Int.mem_toNat?.mpr rfl
  simp [messageOf, submitMsg, readId_number hid, hheight]

/-- A submission settles an active subscription that it triggers. -/
theorem Serves.settled {sender : String} {msg : SubmitMsg Json.Doc} {asked w' : Chains}
    {answer : Except Failure String}
    (hserves : Serves lib remote (.execute sender msg) asked answer w w') (hw : w.hub.Sound)
    {sub : Subscription} {height : Height} {appHash proof key value : Binary}
    (hmsg : messageOf msg = some (.submitProof sub.id height appHash proof key value))
    (hload : w.hub.load sub.id = some sub)
    (htriggers : Triggers lib w.hubHeight sub appHash proof key value) :
  w'.hub.Settled sub.id
  := by
  cases hserves with
  | executed hmessage =>
      obtain rfl := Option.some.inj (hmsg.symm.trans hmessage)
      apply settled_of_triggers hw hload htriggers
  | refused hmessage =>
      obtain rfl := Option.some.inj (hmsg.symm.trans hmessage)
      apply settled_of_triggers hw hload htriggers
  | unread hmessage => simp [hmessage] at hmsg

/-- A submission of what was fetched settles the subscription, if the condition holds of it. -/
theorem achieves_signAndSubmit (hlib : ReadsWireFormat lib) (hsteady : remote.Steady)
    (hw : w.hub.Sound) {sub : Subscription} (hload : w.hub.load sub.id = some sub)
    (hid : sub.id ≤ 100) (hactive : sub.status = .active) {path : List String}
    (hpath : sub.keyPath = "wasm" :: path) {limit : Chains}
    (hunexpired : ∀ last, sub.expiresAt = some last → limit.hubHeight ≤ last)
    {height : ℕ} (hmade : remote.madeAt height ≤ w.time) {value iavl simple : Binary}
    (hproven : Proven lib (remote.appHash height) "wasm" sub.watchKey value iavl simple)
    (hmet : checkValue lib sub.condition value = .ok ()) (mnemonic : String) :
  Achieves (world lib remote) apply
    (fun _ _ w' => w.Changes lib w' ∧ SettledBefore limit sub.id w')
    (fun _ _ w' => w.Changes lib w' ∧ SettledBefore limit sub.id w')
    (signAndSubmit mnemonic (number sub.id) ⟨sub.watchKey, value, some height,
      [⟨"ics23:iavl", iavl⟩, ⟨"ics23:simple", simple⟩]⟩) s w
  := by
  apply achieves_bind.mpr
  have htime : remote.madeAt (height + 1) ≤ w.time + 2000 * 9 :=
    (hsteady height).trans (Nat.add_le_add_right hmade _)
  apply (achieves_attemptAppHash 9 htime).mono
  case hE => exact fun _ _ _ hfalse => hfalse.elim
  rintro appHash s₁ w₁ ⟨hw₁, rfl⟩
  -- the key and the client are always there
  apply achieves_bind.mpr
  apply (achieves_answered (P := fun _ => True) fun h => by cases h; simp).mono
  case hE => exact fun _ _ _ hfalse => hfalse.elim
  rintro _ s₂ w₂ ⟨hw₂, -⟩
  apply achieves_bind.mpr
  apply (achieves_answered (P := fun accounts => accounts ≠ []) fun h => by cases h; simp).mono
  case hE => exact fun _ _ _ hfalse => hfalse.elim
  rintro accounts s₃ w₃ ⟨hw₃, haccounts⟩
  apply achieves_bind.mpr
  apply (achieves_answered (P := fun _ => True) fun h => by cases h; simp).mono
  case hE => exact fun _ _ _ hfalse => hfalse.elim
  rintro _ s₄ w₄ ⟨hw₄, -⟩
  have hw₄ : w.Changes lib w₄ := hw₁.trans (hw₂.trans (hw₃.trans hw₄))
  obtain ⟨account, accounts, rfl⟩ := List.exists_cons_of_ne_nil haccounts
  apply achieves_bind.mpr
  apply achieves_fromExcept.mpr
  refine ⟨?_, by simp [orThrow]⟩
  rintro address ⟨⟩
  -- the proof is submitted
  apply achieves_bind.mpr
  apply achieves_request.mpr
  intro answer w₅ w₆ s₆ hw₅ hserves
  have hw₅ : w.Changes lib w₅ := hw₄.trans hw₅
  have hw₆ : w.Changes lib w₆ := hw₅.trans hserves.changes
  have hsettled : SettledBefore limit sub.id w₆ := by
    intro hlimit
    have hsound := hw₅.sound hw
    rcases hw₅.load_or_settled hw hload hactive with hload | hsettled
    · apply hserves.settled hsound (messageOf_submitMsg (hid.trans_lt (by decide)) ..) hload
      refine ⟨hactive, ?_, rfl, ?_, hmet⟩
      · apply hasExpired_eq_false_iff.mpr
        intro last hlast
        apply (hserves.changes.before hlimit).2.trans (hunexpired last hlast)
      · rw [hpath]
        apply (hproven.chained hlib).verify
    · apply hserves.changes.settled hsound hsettled
  constructor
  · intro hash _
    exact ⟨hw₆, hsettled⟩
  · intro e _
    exact ⟨hw₆, hsettled⟩

/-! ### Processing -/

/-- At any state that is the latest one at some time between, the key of the subscription has a
value of which its condition holds, for the watcher and for the hub. -/
def Remote.Due (remote : Remote) (lib : Libraries) (sub : Subscription) (start stop : ℕ) : Prop :=
  ∀ height, remote.madeAt height ≤ stop → start < remote.madeAt (height + 1) →
    ∃ value, (remote.state height).shown "wasm" sub.watchKey = some value ∧
      checkCondition sub.condition.toWire value = true ∧ checkValue lib sub.condition value = .ok ()

/-- What is achieved by checking and submitting is achieved by processing a subscription, which
does not fail. -/
theorem achieves_processSubscription [Host] {I : Chains → Prop} {sub : Subscription}
    (hkey : sub.watchKey ≠ []) {mnemonic : String}
    (hcheck : ∀ s', Achieves (world lib remote) apply (fun _ _ w' => I w') (fun _ _ w' => I w')
      (checkAndSubmit (wire sub) mnemonic (String.ofList (bytesToHex sub.watchKey))) s' w) :
  Achieves (world lib remote) apply (fun _ _ w' => I w') (fun _ _ _ => False)
    (processSubscription (wire sub) mnemonic) s w
  := by
  have hne : (wire sub).watchKey ≠ "" := by
    intro hempty
    apply hkey (toBase64_eq_empty_iff.mp hempty)
  have hread : fromBase64 (wire sub).watchKey = some sub.watchKey := fromBase64_toBase64 _
  rw [processSubscription, if_neg hne]
  apply achieves_bind.mpr
  apply achieves_fromExcept.mpr
  rw [hread]
  refine ⟨?_, by simp [orThrow]⟩
  rintro watchKey ⟨⟩
  apply achieves_bind.mpr
  show Achieves _ _ _ _ _ _ _
  apply achieves_handle.mpr
  apply (hcheck _).mono
  · exact fun _ _ _ hI => hI
  · exact fun _ _ _ hI => hI

/-- A subscription that is due is settled. -/
theorem achieves_checkAndSubmit [Host] (hlib : ReadsWireFormat lib) (hsteady : remote.Steady)
    (hw : w.hub.Sound) {sub : Subscription} (hload : w.hub.load sub.id = some sub)
    (hid : sub.id ≤ 100) (hactive : sub.status = .active) {path : List String}
    (hpath : sub.keyPath = "wasm" :: path) {limit : Chains}
    (hunexpired : ∀ last, sub.expiresAt = some last → limit.hubHeight ≤ last)
    {since : ℕ} (hsince : since ≤ w.time) (hdue : remote.Due lib sub since limit.time)
    (mnemonic : String) :
  Achieves (world lib remote) apply
    (fun _ _ w' => w.Changes lib w' ∧ SettledBefore limit sub.id w')
    (fun _ _ w' => w.Changes lib w' ∧ SettledBefore limit sub.id w')
    (checkAndSubmit (wire sub) mnemonic (String.ofList (bytesToHex sub.watchKey))) s w
  := by
  apply achieves_bind.mpr
  apply (achieves_fetchStateWithProof sub.watchKey).mono
  case hE => exact fun _ _ _ hfalse => hfalse.elim
  rintro proof s₁ w₁ ⟨hw₁, hfetched⟩
  by_cases hlimit : w₁.Before limit
  case neg =>
      -- it is too late already
      refine achieves_of_stable (I := fun w' => w₁.Changes lib w') (fun _ _ h h' => h'.trans h)
        (.refl lib w₁) _ ?_ ?_
      · exact fun _ _ w' hw' => ⟨hw₁.trans hw', fun h => absurd (hw'.before h) hlimit⟩
      · exact fun _ _ w' hw' => ⟨hw₁.trans hw', fun h => absurd (hw'.before h) hlimit⟩
  case pos =>
      cases hfetched with
      | @none height hmade hlatest hshown =>
          obtain ⟨value, hvalue, -⟩ := hdue height (hmade.trans hlimit.1) (by omega)
          rw [hshown] at hvalue
          contradiction
      | @some height value iavl simple hmade hlatest hshown hproven =>
          obtain ⟨value', hvalue, hmet, hcheck⟩ := hdue height (hmade.trans hlimit.1) (by omega)
          obtain rfl := Option.some.inj (hshown.symm.trans hvalue)
          have hsound := hw₁.sound hw
          rcases hw₁.load_or_settled hw hload hactive with hload | hsettled
          · have hcondition : checkCondition (wire sub).condition value = true := hmet
            simp only [hcondition, Bool.true_eq_false, if_false]
            apply achieves_bind.mpr
            show Achieves _ _ _ _ _ _ _
            apply achieves_bind.mpr
            apply (achieves_signAndSubmit hlib hsteady hsound hload hid hactive hpath hunexpired
              hmade hproven hcheck mnemonic).mono
            · exact fun _ _ w' hw' => ⟨hw₁.trans hw'.1, hw'.2⟩
            · exact fun _ _ w' hw' => ⟨hw₁.trans hw'.1, hw'.2⟩
          · -- someone else has settled it meanwhile
            refine achieves_of_stable (I := fun w' => w₁.Changes lib w')
              (fun _ _ h h' => h'.trans h) (.refl lib w₁) _ ?_ ?_
            · exact fun _ _ w' hw' => ⟨hw₁.trans hw', fun _ => hw'.settled hsound hsettled⟩
            · exact fun _ _ w' hw' => ⟨hw₁.trans hw', fun _ => hw'.settled hsound hsettled⟩

/-! ### A poll -/

/-- What the loop keeps: the subscription is still to come, or it is settled. -/
def Pending (lib : Libraries) (sub : Subscription) (w limit : Chains) (rest : List Listed)
    (w' : Chains) : Prop :=
  w.Changes lib w' ∧ ∃ subs : List Subscription, rest = subs.map listedOf ∧
    (∀ x ∈ subs, x.watchKey ≠ []) ∧ (sub ∈ subs ∨ SettledBefore limit sub.id w')

/-- Every subscription of the list is processed, and the one that is due is settled then. -/
theorem achieves_processAll [Host] (hlib : ReadsWireFormat lib) (hsteady : remote.Steady)
    (hw : w.hub.Sound) {subs : List Subscription} (hkeys : ∀ x ∈ subs, x.watchKey ≠ [])
    {sub : Subscription} (hmem : sub ∈ subs) (hload : w.hub.load sub.id = some sub)
    (hid : sub.id ≤ 100) (hactive : sub.status = .active) {path : List String}
    (hpath : sub.keyPath = "wasm" :: path) {limit : Chains}
    (hunexpired : ∀ last, sub.expiresAt = some last → limit.hubHeight ≤ last)
    (hdue : remote.Due lib sub w.time limit.time) (mnemonic : String) :
  Achieves (world lib remote) apply
    (fun _ _ w' => w.Changes lib w' ∧ SettledBefore limit sub.id w') (fun _ _ _ => False)
    (forEach (subs.map listedOf) fun x => processSubscription x.toWireSubscription mnemonic) s w
  := by
  apply (achieves_forEach (I := Pending lib sub w limit)
    ⟨.refl lib w, subs, rfl, hkeys, .inl hmem⟩ ?_).mono
  · rintro _ s' w' ⟨hw', rest', hrest, -, hsub⟩
    obtain rfl := List.map_eq_nil_iff.mp hrest.symm
    exact ⟨hw', hsub.resolve_left List.not_mem_nil⟩
  · exact fun _ _ _ hfalse => hfalse
  rintro x rest s₁ w₁ ⟨hw₁, rest', hrest, hkeys', hsub⟩
  obtain ⟨y, ys, rfl, rfl, rfl⟩ := List.map_eq_cons_iff.mp hrest.symm
  have hy := hkeys' y List.mem_cons_self
  have hys : ∀ x ∈ ys, x.watchKey ≠ [] := fun x hx => hkeys' x (List.mem_cons_of_mem y hx)
  have hsound := hw₁.sound hw
  -- where it is settled or still to come, it only matters that the chains go on
  have hpending (hsub : sub ∈ ys ∨ SettledBefore limit sub.id w₁) (w' : Chains)
      (hw' : w₁.Changes lib w') : Pending lib sub w limit (ys.map listedOf) w' :=
    ⟨hw₁.trans hw', ys, rfl, hys, hsub.imp_right fun h => h.changes hsound hw'⟩
  have hpass (hsub : sub ∈ ys ∨ SettledBefore limit sub.id w₁) (s₂ : State) :
      Achieves (world lib remote) apply
        (fun _ _ w' => Pending lib sub w limit (ys.map listedOf) w')
        (fun _ _ w' => Pending lib sub w limit (ys.map listedOf) w')
        (checkAndSubmit (wire y) mnemonic (String.ofList (bytesToHex y.watchKey))) s₂ w₁ :=
    achieves_of_stable (fun _ _ h h' => h'.trans h) (Chains.Changes.refl lib w₁) _
      (fun _ _ => hpending hsub) (fun _ _ => hpending hsub)
  apply achieves_processSubscription hy
  intro s₂
  rcases hsub with hsub | hsettled
  · rcases List.mem_cons.mp hsub with rfl | hsub
    · rcases hw₁.load_or_settled hw hload hactive with hload₁ | hsettled
      · apply (achieves_checkAndSubmit hlib hsteady hsound hload₁ hid hactive hpath hunexpired
          hw₁.time_le hdue mnemonic).mono
        · exact fun _ _ w' hw' => ⟨hw₁.trans hw'.1, ys, rfl, hys, .inr hw'.2⟩
        · exact fun _ _ w' hw' => ⟨hw₁.trans hw'.1, ys, rfl, hys, .inr hw'.2⟩
      · apply hpass (.inr fun _ => hsettled)
    · apply hpass (.inl hsub)
  · apply hpass (.inr hsettled)

/-- The active subscriptions in the answer to the request for the list. -/
theorem active_listed (hub : Storage) :
  ((queryListSubscriptions hub none (some 100)).map listedOf).filter
      (fun x => x.status = .word "active")
    = (Watcher.fetchActiveSubscriptions hub).map listedOf
  := by
  rw [List.filter_map]
  rfl

/-- Where there are subscriptions and the watcher may sign, it processes them. -/
theorem achieves_pollListed [Host] {subs : List Listed} (hne : subs ≠ []) {mnemonic : Option String}
    {secret : String} (hsecret : truthyMnemonic mnemonic = some secret)
    {Q : Unit → State → Chains → Prop} {E : Failure → State → Chains → Prop}
    (hprocess : ∀ s', Achieves (world lib remote) apply Q E
      (forEach subs fun x => processSubscription x.toWireSubscription secret) s' w) :
  Achieves (world lib remote) apply Q E (pollListed mnemonic subs) s w
  := by
  have hlength : ¬ subs.length = 0 := by simpa using hne
  show Achieves _ _ _ _ (if subs.length = 0 then _ else _) _ _
  rw [if_neg hlength, hsecret]
  apply hprocess

/-- A poll settles a subscription that is due. -/
theorem achieves_pollOnce [Host] (hlib : ReadsWireFormat lib) (hsteady : remote.Steady)
    (hw : w.hub.Sound) {sub : Subscription} (hload : w.hub.load sub.id = some sub)
    (hid : sub.id ≤ 100) (hactive : sub.status = .active) {path : List String}
    (hpath : sub.keyPath = "wasm" :: path) {limit : Chains}
    (hunexpired : ∀ last, sub.expiresAt = some last → limit.hubHeight ≤ last)
    (hdue : remote.Due lib sub w.time limit.time) {mnemonic : Option String} {secret : String}
    (hsecret : truthyMnemonic mnemonic = some secret) :
  Achieves (world lib remote) apply
    (fun _ _ w' => w.Changes lib w' ∧ SettledBefore limit sub.id w') (fun _ _ _ => False)
    (pollOnce mnemonic) s w
  := by
  apply achieves_handle.mpr
  suffices hpoll : Achieves (world lib remote) apply
      (fun _ _ w' => w.Changes lib w' ∧ SettledBefore limit sub.id w')
      (fun _ _ w' => w.Changes lib w' ∧ SettledBefore limit sub.id w')
      (pollSubscriptions mnemonic) s w from hpoll.mono (fun _ _ _ h => h) (fun _ _ _ h => h)
  apply achieves_bind.mpr
  apply achieves_bind.mpr
  apply (achieves_answered (P := fun _ => True) fun h => by cases h; simp).mono
  case hE => exact fun _ _ _ hfalse => hfalse.elim
  rintro _ s₁ w₁ ⟨hw₁, -⟩
  apply achieves_bind.mpr
  apply achieves_request.mpr
  intro answer w₂ w₃ s₃ hw₂ hserves
  have hw₂ : w.Changes lib w₂ := hw₁.trans hw₂
  have hsound := hw₂.sound hw
  cases hserves with
  | list =>
      refine ⟨?_, by simp⟩
      rintro subscriptions ⟨⟩
      show Achieves _ _ _ _ (pollListed mnemonic (((queryListSubscriptions w₂.hub none
        (some 100)).map listedOf).filter fun x => x.status = .word "active")) s₃ w₂
      rw [active_listed]
      rcases hw₂.load_or_settled hw hload hactive with hload₂ | hsettled
      · have hmem : sub ∈ Watcher.fetchActiveSubscriptions w₂.hub :=
          (mem_fetchActiveSubscriptions_iff hsound).mpr ⟨sub.id, hid, hload₂, hactive⟩
        have hkeys : ∀ x ∈ Watcher.fetchActiveSubscriptions w₂.hub, x.watchKey ≠ [] := by
          intro x hx
          obtain ⟨_, -, hloadx, -⟩ := (mem_fetchActiveSubscriptions_iff hsound).mp hx
          apply (hsound.wellFormed hloadx).watchKey_ne
        apply achieves_pollListed (List.map_eq_nil_iff.not.mpr (List.ne_nil_of_mem hmem)) hsecret
        intro s₄
        have hdue₂ : remote.Due lib sub w₂.time limit.time := fun height hmade hlatest =>
          hdue height hmade (hw₂.time_le.trans_lt hlatest)
        apply (achieves_processAll hlib hsteady hsound hkeys hmem hload₂ hid hactive hpath
          hunexpired hdue₂ secret).mono
        · exact fun _ _ w' hw' => ⟨hw₂.trans hw'.1, hw'.2⟩
        · exact fun _ _ _ hfalse => hfalse.elim
      · -- it was settled before the list was made
        refine achieves_of_stable (I := fun w' => w₂.Changes lib w') (fun _ _ h h' => h'.trans h)
          (.refl lib w₂) _ ?_ ?_
        · exact fun _ _ w' hw' => ⟨hw₂.trans hw', fun _ => hw'.settled hsound hsettled⟩
        · exact fun _ _ w' hw' => ⟨hw₂.trans hw', fun _ => hw'.settled hsound hsettled⟩

/-- A remote chain that makes a block each second and always has the same state. -/
def sampleRemote : Remote where
  state _ := sampleState
  appHash _ := sampleAppHash
  madeAt height := 1000 * height

/-- The two chains with one subscription on the hub, where block 100 is the latest one. -/
def sampleChains : Chains := ⟨committed wireLibraries [sampleSubscription], 20, 100500⟩

/-- The two chains when the next block is made. -/
def laterChains : Chains := ⟨committed wireLibraries [sampleSubscription], 20, 101500⟩

/-- The two chains when the proof has been submitted. -/
def submittedChains (proof : Binary) : Chains :=
  { laterChains with hub := ((contract wireLibraries).transact (.message ⟨20⟩
      ⟨⟨"account"⟩, .submitProof 1 ⟨2, 100⟩ sampleAppHash proof [1] [0x37]⟩ (fun _ => .succeed)
      (fun _ => "")) laterChains.hub).state }

section Sample

variable {w₁ w₂ : Chains}

theorem ends_await {req : Request} {a : Response req} (hw : w.Changes lib w₁)
    (hserves : Serves lib remote req w (.ok a) w₁ w₂) :
  Ends (world lib remote) apply (await req) s w a s w₂
  := Ends.request hw hserves

/-- The poll sees the subscription. -/
theorem ends_fetchActiveSubscriptions :
  Ends (world wireLibraries sampleRemote) apply fetchActiveSubscriptions s sampleChains
    [listedOf sampleSubscribed] s sampleChains
  := by
  have hlist : ((queryListSubscriptions sampleChains.hub none (some 100)).map listedOf).filter
      (fun x => x.status = .word "active") = [listedOf sampleSubscribed] := by
    have hquery : queryListSubscriptions sampleChains.hub none (some 100) = [sampleSubscribed] := by
      decide +kernel
    rw [hquery]
    rfl
  rw [← hlist]
  apply Ends.bind (ends_await (.refl _ _) .connect)
  apply Ends.bind (ends_await (.refl _ _) .list)
  exact .done

/-- It fetches the proof. -/
theorem ends_fetchStateWithProof [Host] :
  ∃ iavl simple, Proven wireLibraries sampleAppHash "wasm" [1] [0x37] iavl simple ∧
    ∀ s, Ends (world wireLibraries sampleRemote) apply
      (fetchStateWithProof (String.ofList (bytesToHex [1]))) s sampleChains
      (some ⟨[1], [0x37], some 100, [⟨"ics23:iavl", iavl⟩, ⟨"ics23:simple", simple⟩]⟩) s
      sampleChains
  := by
  obtain ⟨iavl, simple, hproven, -, hfetch⟩ :=
    fetchStateWithProof_of_present sampleNode_honest (shown_sampleState.mpr ⟨⟨rfl, rfl⟩, rfl⟩)
  refine ⟨iavl, simple, hproven, fun s => ?_⟩
  have hquery : Serves wireLibraries sampleRemote (.abciQuery "store/wasm/key"
      ("0x" ++ String.ofList (bytesToHex [1]))) sampleChains (.ok (sampleNode.abciQuery
        "store/wasm/key" ("0x" ++ String.ofList (bytesToHex [1])))) sampleChains sampleChains :=
    @Serves.query wireLibraries sampleRemote _ _ sampleChains sampleChains sampleNode 100
      (by decide) (by decide) sampleNode_honest
  apply Ends.bind (ends_await (.refl _ _) hquery)
  rw [readAnswer_of_fetch hfetch]
  exact .done

/-- It fetches the hash of the application. -/
theorem ends_fetchAppHash :
  Ends (world wireLibraries sampleRemote) apply (fetchAppHash (some 100)) s sampleChains
    sampleAppHash s laterChains
  := by
  have hchanges : sampleChains.Changes wireLibraries laterChains :=
    ⟨by decide, by decide, [], rfl, by simp⟩
  have hblock : Serves wireLibraries sampleRemote (.block (some (100 + 1))) sampleChains
      (.ok (some (String.ofList (Hex.encode sampleAppHash)))) laterChains laterChains := by
    apply Serves.block (by decide) (by decide)
    rw [String.toList_ofList, Hex.decode?_encode]
    rfl
  have hhash : hexToBytes (String.ofList (Hex.encode sampleAppHash)).toList = sampleAppHash := by
    rw [String.toList_ofList]
    exact Explorer.hexToBytes_eq (Hex.decode?_encode _)
  rw [← hhash]
  apply Ends.bind (ends_await hchanges hblock)
  exact .done

/-- It submits the proof, which is accepted. -/
theorem ends_signAndSubmit {iavl simple : Binary}
    (hproven : Proven wireLibraries sampleAppHash "wasm" [1] [0x37] iavl simple) :
  (submittedChains (buildMerkleProof [⟨"ics23:iavl", iavl⟩, ⟨"ics23:simple", simple⟩])).hub.load 1
      = some { sampleSubscribed with status := .triggered } ∧
    ∀ s, Ends (world wireLibraries sampleRemote) apply
      (signAndSubmit "secret" (number 1)
        ⟨[1], [0x37], some 100, [⟨"ics23:iavl", iavl⟩, ⟨"ics23:simple", simple⟩]⟩)
      s sampleChains "01" (apply (.addEvent ⟨number 1, .proofSubmitted,
        Json.str ("Proof submitted! TX: " ++ "01"), some "01"⟩) s)
      (submittedChains (buildMerkleProof [⟨"ics23:iavl", iavl⟩, ⟨"ics23:simple", simple⟩]))
  := by
  have hload : laterChains.hub.load 1 = some sampleSubscribed := by decide
  have htriggers : Triggers wireLibraries 20 sampleSubscribed sampleAppHash
      (buildMerkleProof [⟨"ics23:iavl", iavl⟩, ⟨"ics23:simple", simple⟩]) [1] [0x37] :=
    ⟨rfl, rfl, rfl, (hproven.chained wireLibraries_readsWireFormat).verify [], by decide⟩
  have hexec := @contract_execute_of_triggers _ ⟨20⟩ ⟨"account"⟩ _ _ _ _ _ _ _ hload htriggers
    ⟨2, 100⟩
  obtain ⟨hanswer, hstate⟩ := @Platform.Contract.send_of_callback_ok _ _ _ _ _ _ _ _
    (fun _ => .succeed) _ _ _ hexec rfl
  constructor
  · rw [submittedChains, Platform.Contract.transact_message_of_ok hanswer, hstate]
    apply Storage.load_save_self
  · have hserves := @Serves.executed wireLibraries sampleRemote "account" _ _ laterChains
      laterChains (fun _ => .succeed) (fun _ => "") "01" (messageOf_submitMsg (by decide) 100 [1]
        [0x37] [⟨"ics23:iavl", iavl⟩, ⟨"ics23:simple", simple⟩] sampleAppHash)
      (Platform.Contract.answer_transact_message_of_ok hanswer _)
    intro s
    apply Ends.bind ends_fetchAppHash
    apply Ends.bind (ends_await (.refl _ _) .fromMnemonic)
    apply Ends.bind (ends_await (.refl _ _) (@Serves.getAccounts _ _ "account" [] _ _))
    apply Ends.bind (ends_await (.refl _ _) .connectWithSigner)
    apply Ends.bind (.done (a := "account"))
    apply Ends.bind (ends_await (.refl _ _) hserves)
    exact .act .done

/-- It checks and submits. -/
theorem ends_processSubscription [Host] :
  ∃ proof,
    (submittedChains proof).hub.load 1 = some { sampleSubscribed with status := .triggered } ∧
    ∀ s, ∃ s', Ends (world wireLibraries sampleRemote) apply
      (processSubscription (wire sampleSubscribed) "secret") s sampleChains () s'
      (submittedChains proof)
  := by
  obtain ⟨iavl, simple, hproven, hfetch⟩ := ends_fetchStateWithProof
  have hne : (wire sampleSubscribed).watchKey ≠ "" := by decide
  have hread : fromBase64 (wire sampleSubscribed).watchKey = some [1] := fromBase64_toBase64 _
  have hmet : checkCondition (wire sampleSubscribed).condition [0x37] = true := by decide +kernel
  obtain ⟨htriggered, hsubmit⟩ := ends_signAndSubmit hproven
  refine ⟨_, htriggered, fun s => ?_⟩
  rw [processSubscription, if_neg hne, hread]
  apply Exists.intro
  apply Ends.bind .done
  apply Ends.bind (.act .done)
  apply Ends.handle
  apply Ends.bind (hfetch _)
  simp only [hmet, Bool.true_eq_false, if_false]
  apply Ends.bind (.act .done)
  apply Ends.bind (hsubmit _)
  exact .done

/-- A poll between the two chains, alone. -/
theorem ends_pollOnce [Host] :
  ∃ proof,
    (submittedChains proof).hub.load 1 = some { sampleSubscribed with status := .triggered } ∧
    ∃ s', Ends (world wireLibraries sampleRemote) apply (pollOnce (some "secret")) (.initial 0)
      sampleChains () s' (submittedChains proof)
  := by
  obtain ⟨proof, htriggered, hprocess⟩ := ends_processSubscription
  obtain ⟨s', hprocess⟩ := hprocess (apply (.setError none) (apply .setLastCheck
    (apply (.setSubscriptions [listedOf sampleSubscribed]) (.initial 0))))
  refine ⟨proof, htriggered, s', ?_⟩
  apply Ends.handle
  apply Ends.bind ends_fetchActiveSubscriptions
  apply Ends.bind (.act .done)
  apply Ends.bind (.act .done)
  apply Ends.bind (.act .done)
  apply Ends.bind (.read .done)
  rw [if_neg (by simp [apply])]
  apply Ends.bind (.read .done)
  apply Ends.bind hprocess
  exact .done

end Sample

end Watcher.Tasks
