import InterchainEvents.Hub.Frame
import InterchainEvents.Hub.Lifecycle

/-!
# The expiry window

A subscription made for some blocks accepts proofs up to and including its last block, and the
numbers of blocks are exact: when the last one is not an integer of 64 bits, no subscription is
made. A proof that comes later is refused as expired, and so is every one after it. Without a
number of blocks no proof is ever refused as expired (`expiry_window`).
-/

namespace Hub

open Shared Platform

variable {lib : Libraries}

/-! ### The answer to a proof -/

/-- A proof meets what was asked for, the time apart. -/
structure Valid (lib : Libraries) (keyPath : List String) (watchKey : Binary)
    (condition : SubscriptionCondition) (appHash proof key value : Binary) : Prop where
  key_eq : key = watchKey
  proven : verifyChainedMembership lib appHash proof keyPath key value = .ok ()
  met : checkValue lib condition value = .ok ()

/-- The answer to a call sent to the contract at block height `h`, the message it asks for being
handled by `callback`. -/
def answerAt (lib : Libraries) (h : ℕ) (call : Call) (callback : SubMsg Callback → Script)
    (s : Storage) : Except Abort Unit :=
  ((contract lib).send ⟨h⟩ call callback s).answer

/-- A call that submits a proof for a subscription. -/
def SubmitsTo (id : ℕ) (call : Call) : Prop :=
  ∃ height appHash proof key value, call.msg = .submitProof id height appHash proof key value

theorem answerAt_of_error {h : ℕ} {call : Call} {s s' : Storage} {e : Abort}
    (hexec : (contract lib).execute ⟨h⟩ call s = (.error e, s'))
    (callback : SubMsg Callback → Script) :
  answerAt lib h call callback s = .error e
  := by
  simp [answerAt, Contract.send, Contract.deliver, hexec]

/-- A call that the contract accepts is answered with success, whatever the callback does. -/
theorem answerAt_of_ok {h : ℕ} {call : Call} {s s' : Storage} {r : Option (SubMsg Callback)}
    (hexec : (contract lib).execute ⟨h⟩ call s = (.ok r, s'))
    (callback : SubMsg Callback → Script) :
  answerAt lib h call callback s = .ok ()
  := by
  cases r with
  | none => apply (Contract.send_of_no_callback callback hexec).1
  | some sub =>
      cases hcalled : ((contract lib).run ⟨h⟩ (callback sub) s').answer with
      | ok _ => apply (Contract.send_of_callback_ok hexec hcalled).1
      | error error =>
          obtain ⟨x, -, -, -, hreply⟩ := reply_of_succeeds (contract_execute_ok hexec) error
          apply (Contract.send_of_callback_error hexec hcalled hreply).1

/-- The answer of the contract itself decides that of the call. -/
theorem answerAt_eq_error_iff {h : ℕ} {call : Call} {s : Storage} {e : Abort}
    {callback : SubMsg Callback → Script} :
  answerAt lib h call callback s = .error e ↔ ((contract lib).execute ⟨h⟩ call s).1 = .error e
  := by
  rcases hexec : (contract lib).execute ⟨h⟩ call s with ⟨r | r, s'⟩
  · rw [answerAt_of_error hexec]
    simp
  · rw [answerAt_of_ok hexec]
    simp

/-- A proof is refused as expired exactly if the subscription is active and has expired. -/
theorem execute_eq_expired_iff {s : Storage} (hs : s.Sound) {env : Env} {id : ℕ} {call : Call}
    (hcall : SubmitsTo id call) :
  ((contract lib).execute env call s).1 = .error (.error (.subscriptionExpired id))
    ↔ ∃ sub, s.load id = some sub ∧ sub.status = .active ∧ hasExpired sub env.height = true
  := by
  obtain ⟨height, appHash, proof, key, value, hmsg⟩ := hcall
  constructor
  · intro h
    have hout := executeSubmitProof_outcome lib env s id height appHash proof key value
    simp only [contract, hmsg, execute] at h
    generalize (executeSubmitProof lib env id height appHash proof key value).runFrom s = o
      at h hout
    cases hout with
    | expired hload hactive hexpired => exact ⟨_, hload, hactive, hexpired⟩
    | unproven hload _ _ _ hproof =>
        cases h
        exact (verify_ofCheck (hs.wellFormed hload).keyPath_ne _ hproof).elim
    | unmet _ _ _ _ _ hvalue =>
        cases h
        exact (checkValue_ofCheck _ hvalue).elim
    | _ => cases h
  · rintro ⟨sub, hload, hactive, hexpired⟩
    rw [contract_execute_expired hmsg hload hactive hexpired]

theorem hasExpired_mono {sub : Subscription} {h h' : ℕ} (hle : h ≤ h')
    (hexpired : hasExpired sub h = true) :
  hasExpired sub h' = true
  := by
  by_contra hnot
  rw [Bool.not_eq_true, hasExpired_eq_false_iff] at hnot
  have hfalse : hasExpired sub h = false :=
    hasExpired_eq_false_iff.mpr fun last hlast => Nat.le_trans hle (hnot last hlast)
  simp [hexpired] at hfalse

/-! ### The window -/

/-- From a storage on, as long as the subscription is active, a proof that is valid but for the
time is accepted up to the block `last` and refused as expired after that. -/
def AcceptsUpTo (lib : Libraries) (s₁ : Storage) (id last : ℕ) (keyPath : List String)
    (watchKey : Binary) (condition : SubscriptionCondition) : Prop :=
  ∀ s sub, (contract lib).Reachable s₁ s → s.load id = some sub → sub.status = .active →
    ∀ (h : ℕ) (info : MessageInfo) (height : Height) (appHash proof key value : Binary)
      (callback : SubMsg Callback → Script),
      Valid lib keyPath watchKey condition appHash proof key value →
        answerAt lib h ⟨info, .submitProof id height appHash proof key value⟩ callback s
          = if h ≤ last then .ok () else .error (.error (.subscriptionExpired id))

/-- From a storage on, no proof for the subscription is refused as expired. -/
def NeverExpires (lib : Libraries) (s₁ : Storage) (id : ℕ) : Prop :=
  ∀ s, (contract lib).Reachable s₁ s → ∀ h call callback, SubmitsTo id call →
    answerAt lib h call callback s ≠ .error (.error (.subscriptionExpired id))

theorem acceptsUpTo_of_load {s₁ : Storage} (hs₁ : s₁.Sound) {id last : ℕ} {sub₁ : Subscription}
    (hload₁ : s₁.load id = some sub₁) (hlast : sub₁.expiresAt = some last) :
  AcceptsUpTo lib s₁ id last sub₁.keyPath sub₁.watchKey sub₁.condition
  := by
  intro s sub hreach hload hactive h info height appHash proof key value callback hvalid
  obtain ⟨hs, hext⟩ := extends_of_reachable hs₁ hreach
  obtain ⟨status, hload'⟩ := hext.2 id sub₁ hload₁
  obtain rfl := Storage.load_unique hload hload'
  by_cases hle : h ≤ last
  · have hunexpired : hasExpired { sub₁ with status := status } (⟨h⟩ : Env).height = false := by
      simp [hasExpired, hlast, hle]
    have htriggers : Triggers lib (⟨h⟩ : Env).height { sub₁ with status := status } appHash proof
        key value := ⟨hactive, hunexpired, hvalid.key_eq, hvalid.proven, hvalid.met⟩
    rw [if_pos hle]
    apply answerAt_of_ok (contract_execute_of_triggers info hload htriggers height)
  · have hexpired : hasExpired { sub₁ with status := status } (⟨h⟩ : Env).height = true := by
      simpa [hasExpired, hlast] using hle
    rw [if_neg hle, answerAt_eq_error_iff]
    apply (execute_eq_expired_iff hs ⟨height, appHash, proof, key, value, rfl⟩).mpr
    exact ⟨_, hload, hactive, hexpired⟩

theorem neverExpires_of_load {s₁ : Storage} (hs₁ : s₁.Sound) {id : ℕ} {sub₁ : Subscription}
    (hload₁ : s₁.load id = some sub₁) (hnone : sub₁.expiresAt = none) :
  NeverExpires lib s₁ id
  := by
  intro s hreach h call callback hcall
  obtain ⟨hs, hext⟩ := extends_of_reachable hs₁ hreach
  obtain ⟨status, hload'⟩ := hext.2 id sub₁ hload₁
  rw [Ne, answerAt_eq_error_iff, execute_eq_expired_iff hs hcall]
  rintro ⟨sub, hload, -, hexpired⟩
  obtain rfl := Storage.load_unique hload hload'
  simp [hasExpired, hnone] at hexpired

/-! ### Expired for good -/

/-- A call that asks for a message is not about a subscription that has expired. -/
theorem Succeeds.id_ne_of_hasExpired {env : Env} {call : Call} {s s₁ : Storage}
    {m : SubMsg Callback} (h : Succeeds lib env call s (some m) s₁) {id : ℕ} {sub : Subscription}
    (hload : s.load id = some sub) (hexpired : hasExpired sub env.height = true) :
  id ≠ m.id
  := by
  cases h with
  | triggered _ hload' htriggers =>
      rintro rfl
      obtain rfl := Storage.load_unique hload hload'
      simp [htriggers.unexpired] at hexpired

/-- An expired subscription stays as it is from its last block on. -/
theorem expiredRule (lib : Libraries) {h id : ℕ} {sub : Subscription}
    (hexpired : hasExpired sub h = true) :
  (contract lib).InvariantRuleIn (fun env => h ≤ env.height)
    (fun s => s.Sound ∧ s.load id = some sub)
  where
  execute := by
    rintro s env message r s' henv ⟨hs, hload⟩ hexec
    have hok := contract_execute_ok hexec
    use hok.sound hs
    cases r with
    | none =>
        cases hok with
        | created => rw [Storage.load_create, if_neg (hs.lt_nextId hload).ne, hload]
    | some m =>
        have hne := hok.id_ne_of_hasExpired hload (hasExpired_mono henv hexpired)
        obtain ⟨x, -, -, rfl⟩ := hok.triggered_of_some
        rw [Storage.load_save_of_ne _ _ hne, hload]
  reply := by
    rintro s env message m s₁ error s₂ henv ⟨hs, hload⟩ hexec ⟨hs₁, hload₁⟩ hreply
    have hok := contract_execute_ok hexec
    have hne := hok.id_ne_of_hasExpired hload (hasExpired_mono henv hexpired)
    use (soundRule lib).reply hs hexec hs₁ hreply
    obtain ⟨y, -, -, rfl⟩ := hok.replied hreply
    rw [Storage.load_save_of_ne _ _ hne, hload₁]

/-- A subscription that is active and has expired was there when the block began: one made in the
block has not expired in it. -/
theorem foundExpiredRule (lib : Libraries) (s₀ : Storage) (h id : ℕ) :
  (contract lib).InvariantRuleIn (fun env => h ≤ env.height)
    (fun s => s.Sound ∧ ∀ sub, s.load id = some sub → sub.status = .active →
      hasExpired sub h = true → s₀.load id = some sub)
  where
  execute := by
    rintro s env message r s' henv ⟨hs, hfound⟩ hexec
    have hok := contract_execute_ok hexec
    use hok.sound hs
    intro sub hload hactive hexpired
    cases hok with
    | created =>
        rw [Storage.load_create] at hload
        split_ifs at hload with hid
        · obtain rfl := Option.some.inj hload
          have hnot := hasExpired_mono henv hexpired
          revert hnot
          simp only [hasExpired, newSubscription]
          split
          case h_1 last hlast =>
              obtain ⟨blocks, -, rfl⟩ := Option.map_eq_some_iff.mp hlast
              simp
          case h_2 => simp
        · apply hfound sub hload hactive hexpired
    | triggered =>
        rw [Storage.load_save] at hload
        split_ifs at hload with hid
        · obtain rfl := Option.some.inj hload
          cases hactive
        · apply hfound sub hload hactive hexpired
  reply := by
    rintro s env message m s₁ error s₂ henv ⟨hs, -⟩ hexec ⟨hs₁, hfound₁⟩ hreply
    use (soundRule lib).reply hs hexec hs₁ hreply
    obtain ⟨y, -, -, rfl⟩ := (contract_execute_ok hexec).replied hreply
    intro sub hload hactive hexpired
    rw [Storage.load_save] at hload
    split_ifs at hload with hid
    · obtain rfl := Option.some.inj hload
      cases hactive
    · apply hfound₁ sub hload hactive hexpired

/-- An entry that submits a proof for a subscription and is refused as expired. -/
def RefusesAsExpired (id : ℕ) (event : Event) : Prop :=
  ∃ env call before, SubmitsTo id call ∧
    event = .execute env call before (.error (.error (.subscriptionExpired id)))

/-- If an entry submits a proof for a subscription, it is refused as expired. -/
def RefusedIfSubmitted (id : ℕ) (event : Event) : Prop :=
  ∀ env call before answer, event = .execute env call before answer → SubmitsTo id call →
    answer = .error (.error (.subscriptionExpired id))

/-- What a transaction refuses as expired was stored, active and expired, when it began. -/
theorem expired_of_mem_transact {tx : Tx} {s : Storage} (hs : s.Sound) {id : ℕ} {r : Record}
    (hr : r ∈ ((contract lib).transact tx s).log) (hrefuses : RefusesAsExpired id r.event) :
  ∃ sub, s.load id = some sub ∧ sub.status = .active ∧ hasExpired sub tx.env.height = true
  := by
  obtain ⟨env, call, before, hcall, hevent⟩ := hrefuses
  have hr' : r ∈ ((contract lib).history [tx] s).2 := List.mem_append_left _ hr
  have hgenuine := Contract.genuine_of_mem_history hr'
  have henv := (contract lib).env_of_mem_transact hr
  have hfound := ((foundExpiredRule lib s tx.env.height id).transact (Nat.le_refl _)
    ⟨hs, fun _ hload _ _ => hload⟩).2 r hr
  rw [hevent] at hgenuine henv hfound
  obtain ⟨hsound, hfound⟩ := hfound
  obtain ⟨sub, hload, hactive, hexpired⟩ := (execute_eq_expired_iff hsound hcall).mp hgenuine
  have heq : env.height = tx.env.height := congrArg Env.height henv
  rw [heq] at hexpired
  exact ⟨sub, hfound sub hload hactive hexpired, hactive, hexpired⟩

/-- When a subscription is active and has expired, all proofs for it are refused as expired. -/
theorem refused_of_mem_history {txs : List Tx} {s : Storage} (hs : s.Sound) {id h : ℕ}
    {sub : Subscription} (hload : s.load id = some sub) (hactive : sub.status = .active)
    (hexpired : hasExpired sub h = true) (htxs : ∀ tx ∈ txs, h ≤ tx.env.height) {r : Record}
    (hr : r ∈ ((contract lib).history txs s).2) :
  RefusedIfSubmitted id r.event
  := by
  intro env call before answer hevent hcall
  have hgenuine := Contract.genuine_of_mem_history hr
  obtain ⟨tx, htx, henv⟩ := (contract lib).env_of_mem_history hr
  have hfound := ((expiredRule lib hexpired).history htxs ⟨hs, hload⟩).2 r hr
  rw [hevent] at hgenuine henv hfound
  obtain ⟨hsound, hload'⟩ := hfound
  have hle : h ≤ env.height := (htxs tx htx).trans_eq (congrArg Env.height henv).symm
  rw [← hgenuine]
  apply (execute_eq_expired_iff hsound hcall).mpr
  exact ⟨sub, hload', hactive, hasExpired_mono hle hexpired⟩

/-- Once a proof for a subscription was refused as expired, all later ones are. -/
theorem refused_after_refused {txs : List Tx}
    (hheights : txs.Pairwise fun tx tx' => tx.env.height ≤ tx'.env.height) {s : Storage}
    (hs : s.Sound) {id : ℕ} {l l' : List Record} {r : Record}
    (hlog : ((contract lib).history txs s).2 = l ++ r :: l')
    (hrefuses : RefusesAsExpired id r.event) :
  ∀ r' ∈ l', RefusedIfSubmitted id r'.event
  := by
  induction txs generalizing s l with
  | nil => simp [Contract.history] at hlog
  | cons tx txs ih =>
      obtain ⟨hle, hheights'⟩ := List.pairwise_cons.mp hheights
      have hs' : ((contract lib).transact tx s).state.Sound :=
        (soundRule lib).historyRule.history [tx] (h := []) hs
      rcases List.append_eq_append_iff.mp hlog with ⟨a, -, hrest⟩ | ⟨c, hc, hrest⟩
      · apply ih hheights' hs' hrest
      · cases c with
        | nil => apply ih hheights' hs' (l := []) hrest.symm
        | cons r₁ c =>
            -- the refusal is in the first transaction, so the subscription was expired before it
            obtain ⟨rfl, -⟩ := List.cons.inj hrest
            have hr : r ∈ ((contract lib).transact tx s).log := by
              rw [hc]
              simp
            obtain ⟨sub, hload, hactive, hexpired⟩ := expired_of_mem_transact hs hr hrefuses
            have hfrom : ∀ tx' ∈ tx :: txs, tx.env.height ≤ tx'.env.height := by
              intro tx' htx'
              rcases List.mem_cons.mp htx' with rfl | htx'
              · apply Nat.le_refl
              · apply hle tx' htx'
            intro r' hr'
            apply refused_of_mem_history hs hload hactive hexpired hfrom (r := r')
            rw [hlog]
            apply List.mem_append_right _ (List.mem_cons_of_mem _ hr')

/-! ### The window of a new subscription -/

/-- A subscription that is asked for is refused, and nothing changes, or is made. -/
theorem send_subscribe (lib : Libraries) (s : Storage) (h : ℕ) (info : MessageInfo)
    (clientId : String) (keyPath : List String) (watchKey : Binary)
    (condition : SubscriptionCondition) (callbackContract : String) (callbackMsg : Binary)
    (expiresAfterBlocks : Option ℕ) (callback : SubMsg Callback → Script) :
  let sent := (contract lib).send ⟨h⟩ ⟨info, .subscribe clientId keyPath watchKey condition
    callbackContract callbackMsg expiresAfterBlocks⟩ callback s
  ((∃ e, sent.answer = .error e) ∧ sent.state = s) ∨
    (sent.answer = .ok () ∧ (∀ blocks ∈ expiresAfterBlocks, h + blocks < 2 ^ 64) ∧
      sent.state = s.create (newSubscription h info clientId keyPath watchKey condition
        callbackContract callbackMsg expiresAfterBlocks s.nextId))
  := by
  intro sent
  rcases hexec : (contract lib).execute ⟨h⟩ ⟨info, .subscribe clientId keyPath watchKey condition
    callbackContract callbackMsg expiresAfterBlocks⟩ s with ⟨e | r, s'⟩
  · left
    simp [sent, Contract.send, Contract.deliver, hexec]
  · right
    cases contract_execute_ok hexec with
    | created hmsg _ _ _ _ hblocks =>
        obtain ⟨rfl, rfl, rfl, rfl, rfl, rfl, rfl⟩ := ExecuteMsg.subscribe.inj hmsg
        obtain ⟨hanswer, hstate⟩ := Contract.send_of_no_callback callback hexec
        exact ⟨hanswer, hblocks, hstate⟩
    | triggered hmsg => cases hmsg

/-- **The expiry window.** Let a subscription be asked for at block height `h₀`, in any storage of
any run. Either the call fails and the storage is as it was, or the call makes the subscription
under the next free number. With a number of blocks `b` it is made only if `h₀ + b` is an integer
of 64 bits; then, in all storages reached from there in which it is still active, a proof that is
valid but for the time is accepted if it comes at a height up to `h₀ + b`, and refused as expired
otherwise. With none, no proof for it is ever refused as expired. And in every run over blocks of
ascending heights, however the contract is called within its transactions, once a proof for a
subscription was refused as expired, all later ones are. -/
theorem expiry_window (lib : Libraries) :
  (∀ s, Reachable lib s → ∀ (h₀ : ℕ) (info : MessageInfo) (clientId : String)
    (keyPath : List String) (watchKey : Binary) (condition : SubscriptionCondition)
    (callbackContract : String) (callbackMsg : Binary) (expiresAfterBlocks : Option ℕ)
    (callback : SubMsg Callback → Script),
    let sent := (contract lib).send ⟨h₀⟩ ⟨info, .subscribe clientId keyPath watchKey condition
      callbackContract callbackMsg expiresAfterBlocks⟩ callback s
    ((∃ e, sent.answer = .error e) ∧ sent.state = s) ∨
      (sent.answer = .ok () ∧ s.load s.nextId = none ∧
        (∃ sub, sent.state.load s.nextId = some sub ∧ sub.status = .active ∧
          sub.expiresAt = expiresAfterBlocks.map (h₀ + ·)) ∧
        match expiresAfterBlocks with
        | some b => h₀ + b < 2 ^ 64 ∧
            AcceptsUpTo lib sent.state s.nextId (h₀ + b) keyPath watchKey condition
        | none => NeverExpires lib sent.state s.nextId)) ∧
    ∀ txs : List Tx, txs.Pairwise (fun tx tx' => tx.env.height ≤ tx'.env.height) →
      ∀ id l r l', log lib txs = l ++ r :: l' → RefusesAsExpired id r.event →
        ∀ r' ∈ l', RefusedIfSubmitted id r'.event
  := by
  constructor
  · intro s hreach h₀ info clientId keyPath watchKey condition callbackContract callbackMsg
      expiresAfterBlocks callback sent
    have hs := sound_of_reachable hreach
    rcases send_subscribe lib s h₀ info clientId keyPath watchKey condition callbackContract
      callbackMsg expiresAfterBlocks callback with hfailed | ⟨hanswer, hblocks, hstate⟩
    · exact .inl hfailed
    · have hload : sent.state.load s.nextId = some (newSubscription h₀ info clientId keyPath
          watchKey condition callbackContract callbackMsg expiresAfterBlocks s.nextId) := by
        rw [hstate, Storage.load_create, if_pos rfl]
      have hsent : sent.state.Sound := (soundRule lib).historyRule.send (h := []) hs
      refine .inr ⟨hanswer, hs.load_nextId, ⟨_, hload, rfl, rfl⟩, ?_⟩
      cases expiresAfterBlocks with
      | some b => exact ⟨hblocks b rfl, acceptsUpTo_of_load hsent hload rfl⟩
      | none => exact neverExpires_of_load hsent hload rfl
  · intro txs hheights id l r l' hlog hrefuses
    apply refused_after_refused hheights Storage.sound_initial hlog hrefuses

theorem expiry_window_sample :
  (∃ s, s.load 1 = some shortSubscribed ∧
    answerAt .sample 15 ⟨⟨"bob"⟩, .submitProof 1 ⟨2, 100⟩ sampleAppHash sampleProof [1] [0x37]⟩
      (fun _ => .succeed) s = .ok () ∧
    answerAt .sample 16 ⟨⟨"bob"⟩, .submitProof 1 ⟨2, 100⟩ sampleAppHash sampleProof [1] [0x37]⟩
      (fun _ => .succeed) s = .error (.error (.subscriptionExpired 1))) ∧
    ∃ r, r ∈ log .sample [shortSubscription, lateSubmission, lateSubmission] ∧
      RefusedIfSubmitted 1 r.event
  := by
  constructor
  · rcases (expiry_window .sample).1 .initial .start 10 ⟨"alice"⟩ "07-tendermint-42" ["wasm"] [1]
      .exists "callback" [] (some 5) (fun _ => .succeed)
      with ⟨⟨e, herror⟩, -⟩ | ⟨-, -, -, -, haccepts⟩
    · cases herror
    · have hvalid : Valid .sample ["wasm"] [1] .exists sampleAppHash sampleProof [1] [0x37] :=
        ⟨rfl, by decide +kernel, rfl⟩
      have hanswer := fun h => haccepts _ shortSubscribed .start rfl rfl h ⟨"bob"⟩ ⟨2, 100⟩
        sampleAppHash sampleProof [1] [0x37] (fun _ => .succeed) hvalid
      exact ⟨_, rfl, hanswer 15, hanswer 16⟩
  · have hlog : log .sample [shortSubscription, lateSubmission, lateSubmission]
        = log .sample [shortSubscription] ++
            ⟨.execute ⟨16⟩ ⟨⟨"bob"⟩, .submitProof 1 ⟨2, 100⟩ [] [] [1] []⟩
              (committed .sample [shortSubscription])
              (.error (.error (.subscriptionExpired 1))), false⟩ ::
            [⟨.execute ⟨16⟩ ⟨⟨"bob"⟩, .submitProof 1 ⟨2, 100⟩ [] [] [1] []⟩
              (committed .sample [shortSubscription])
              (.error (.error (.subscriptionExpired 1))), false⟩] := rfl
    have hheights : [shortSubscription, lateSubmission, lateSubmission].Pairwise
        fun tx tx' => tx.env.height ≤ tx'.env.height := by
      simp [shortSubscription, lateSubmission, Tx.message]
    have hsubmits : SubmitsTo 1 ⟨⟨"bob"⟩, .submitProof 1 ⟨2, 100⟩ [] [] [1] []⟩ :=
      ⟨_, _, _, _, _, rfl⟩
    have hrefused := (expiry_window .sample).2 _ hheights 1 _ _ _ hlog ⟨_, _, _, hsubmits, rfl⟩ _
      List.mem_cons_self
    exact ⟨_, by rw [hlog]; simp, hrefused⟩

end Hub
