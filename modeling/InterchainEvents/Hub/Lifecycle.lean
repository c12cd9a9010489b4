import InterchainEvents.Hub.Invariant

/-!
# The lifecycle of a subscription

A subscription fires once. Once it is not active, it stays what it is in every storage
committed later, and of all submissions for it in a run at most one dispatches the callback
and has its writes kept; those made after that one are refused because the subscription is
not active (`oneShot`).

That a subscription has expired is never recorded: the submission that finds out answers with
an error, and the platform discards the record (`expiry_not_recorded`).
-/

namespace Hub

open Shared Platform

variable {lib : Libraries}

/-! ### Entries about one subscription -/

/-- An entry that dispatched the callback of a subscription, with its writes kept. -/
def Dispatches (id : ℕ) (r : Record) : Prop :=
  r.kept = true ∧
    ∃ env call before payload, r.event = .execute env call before (.ok (some ⟨id, payload⟩))

/-- A proof submitted for a subscription. -/
def SubmitsFor (id : ℕ) (e : Event) : Prop :=
  ∃ env info height appHash proof key value before answer,
    e = .execute env ⟨info, .submitProof id height appHash proof key value⟩ before answer

/-- A call that was refused because a subscription was not active. -/
def RefusedAsNotActive (id : ℕ) (e : Event) : Prop :=
  ∃ env call before, e = .execute env call before (.error (.error (.subscriptionNotActive id)))

/-- The first of two entries spends the subscription: if it dispatched the callback, the other
did not, and was refused if it tried. -/
def Spends (id : ℕ) (r r' : Record) : Prop :=
  Dispatches id r → ¬ Dispatches id r' ∧ (SubmitsFor id r'.event → RefusedAsNotActive id r'.event)

theorem not_dispatches_discard (id : ℕ) (r : Record) :
  ¬ Dispatches id r.discard
  := by
  rintro ⟨hkept, -⟩
  cases hkept

/-- A callback is dispatched for a subscription that was active and is triggered. -/
theorem Succeeds.settled_of_some {env : Env} {call : Call} {s s₁ : Storage}
    {sub : SubMsg Callback} (h : Succeeds lib env call s (some sub) s₁) :
  s₁.Settled sub.id
  := by
  obtain ⟨x, -, -, rfl⟩ := h.triggered_of_some
  exact ⟨{ x with status := .triggered }, Storage.load_save_self _ _ _, by simp⟩

/-- An entry for a settled subscription neither dispatches its callback nor is accepted. -/
theorem spends_of_settled {id : ℕ} {env : Env} {call : Call} {s s' : Storage}
    {answer : Except Abort (Option (SubMsg Callback))} {kept : Bool} (hid : s.Settled id)
    (hexec : (contract lib).execute env call s = (answer, s')) :
  ¬ Dispatches id ⟨.execute env call s answer, kept⟩ ∧
    (SubmitsFor id (.execute env call s answer) →
      RefusedAsNotActive id (.execute env call s answer))
  := by
  constructor
  · rintro ⟨-, env', call', before, payload, he⟩
    obtain ⟨-, -, -, rfl⟩ := Event.execute.inj he
    apply (contract_execute_ok hexec).id_ne_of_settled hid rfl
  · rintro ⟨env', info, height, appHash, proof, key, value, before, answer', he⟩
    obtain ⟨rfl, rfl, rfl, rfl⟩ := Event.execute.inj he
    obtain ⟨sub, hload, hstatus⟩ := hid
    rw [contract_execute_notActive rfl hload hstatus] at hexec
    obtain ⟨rfl, -⟩ := Prod.mk.inj hexec
    exact ⟨env, _, s, rfl⟩

/-- The invariant of a run about one subscription: of any two entries the first spends it, and
once it has been spent it is settled. -/
structure Spent (id : ℕ) (h : List Record) (s : Storage) : Prop where
  sound : s.Sound
  pairwise : h.Pairwise (Spends id)
  settled : ∀ {r}, r ∈ h → Dispatches id r → s.Settled id

/-- An entry whose writes are not kept. -/
theorem Spent.append_unkept {id : ℕ} {h : List Record} {s : Storage} (hs : Spent id h s)
    {l : List Record} (hl : ∀ r' ∈ l, ¬ Dispatches id r')
    (hnext : ∀ r ∈ h, ∀ r' ∈ l, Spends id r r') :
  Spent id (h ++ l) s
  where
  sound := hs.sound
  pairwise := by
    apply List.pairwise_append.mpr
    refine ⟨hs.pairwise, ?_, hnext⟩
    apply List.pairwise_of_forall_mem_list
    intro r hr r' _ hr'
    exact absurd hr' (hl r hr)
  settled {r} hr hd := by
    rcases List.mem_append.mp hr with hr | hr
    · apply hs.settled hr hd
    · exact absurd hd (hl r hr)

/-- An entry whose writes are kept. -/
theorem Spent.concat {id : ℕ} {h : List Record} {s s' : Storage} (hs : Spent id h s)
    (hs' : s'.Sound) {r : Record} (hnext : ∀ r₀ ∈ h, Spends id r₀ r)
    (hkeeps : s.Settled id → s'.Settled id) (hsettles : Dispatches id r → s'.Settled id) :
  Spent id (h ++ [r]) s'
  where
  sound := hs'
  pairwise := by
    apply List.pairwise_append.mpr
    refine ⟨hs.pairwise, List.pairwise_singleton _ _, ?_⟩
    intro r₀ hr₀ r' hr'
    obtain rfl := List.mem_singleton.mp hr'
    apply hnext r₀ hr₀
  settled {r₀} hr₀ hd := by
    rcases List.mem_append.mp hr₀ with hr₀ | hr₀
    · apply hkeeps (hs.settled hr₀ hd)
    · obtain rfl := List.mem_singleton.mp hr₀
      apply hsettles hd

theorem spentRule (lib : Libraries) (id : ℕ) :
  (contract lib).HistoryRule (Spent id)
  where
  discard := by
    intro h l s s' hs hs'
    apply hs.append_unkept
    · intro r' hr'
      obtain ⟨r'', -, rfl⟩ := List.mem_map.mp hr'
      apply not_dispatches_discard
    · intro r hr r' hr'
      obtain ⟨r'', hr'', rfl⟩ := List.mem_map.mp hr'
      intro hd
      use not_dispatches_discard id r''
      apply ((List.pairwise_append.mp hs'.pairwise).2.2 r hr r'' hr'' hd).2
  refused := by
    intro h s env message e s' hs hexec
    have hnot : ∀ r' ∈ [(⟨.execute env message s (.error e), false⟩ : Record)],
        ¬ Dispatches id r' := by
      rintro r' hr' ⟨hkept, -⟩
      obtain rfl := List.mem_singleton.mp hr'
      cases hkept
    apply hs.append_unkept hnot
    intro r hr r' hr' hd
    obtain rfl := List.mem_singleton.mp hr'
    apply spends_of_settled (hs.settled hr hd) hexec
  executed := by
    intro h s env message r s' hs hexec
    have hok := contract_execute_ok hexec
    apply hs.concat (hok.sound hs.sound)
    · intro r₀ hr₀ hd
      apply spends_of_settled (hs.settled hr₀ hd) hexec
    · rintro ⟨sub, hload, hstatus⟩
      exact ⟨sub, by rw [hok.load_of_settled hs.sound ⟨sub, hload, hstatus⟩, hload], hstatus⟩
    · rintro ⟨-, env', call', before, payload, he⟩
      obtain ⟨-, -, -, hr⟩ := Event.execute.inj he
      obtain rfl := Except.ok.inj hr
      apply hok.settled_of_some
  replied := by
    intro h s env message sub s₁ l error s₂ hs hexec hs₁ hreply
    obtain ⟨x, -, -, rfl⟩ := (contract_execute_ok hexec).replied hreply
    apply hs₁.concat ((soundRule lib).reply hs.sound hexec hs₁.sound hreply)
    · intro r₀ _ _
      constructor
      · rintro ⟨-, _, _, _, _, he⟩
        cases he
      · rintro ⟨_, _, _, _, _, _, _, _, _, he⟩
        cases he
    · rintro ⟨y, hload, hstatus⟩
      by_cases hid : id = sub.id
      · subst hid
        exact ⟨_, Storage.load_save_self _ _ _, by simp⟩
      · exact ⟨y, by rw [Storage.load_save_of_ne _ _ hid, hload], hstatus⟩
    · rintro ⟨-, _, _, _, _, he⟩
      cases he
  replyRefused := by
    intro h s env message sub s₁ l error e s₂ hs hexec hs₁ hreply
    exact absurd hreply (contract_execute_ok hexec).not_replyRefused

theorem spent_log (txs : List Tx) (id : ℕ) :
  Spent id (log lib txs) (committed lib txs)
  := by
  apply (spentRule lib id).history txs (h := [])
  exact ⟨Storage.sound_initial, .nil, by simp⟩

/-! ### Committed storages -/

/-- What was committed of a subscription that is not active stays. -/
theorem load_committed_append_of_settled {txs : List Tx} {id : ℕ} {sub : Subscription}
    (hload : (committed lib txs).load id = some sub) (hsub : sub.status ≠ .active)
    (txs' : List Tx) :
  (committed lib (txs ++ txs')).load id = some sub
  := by
  have hs := sound_of_reachable (reachable_committed lib txs)
  rw [committed_append]
  apply ((settledRule lib hsub).historyRule.history txs' (h := []) ⟨hs, hload⟩).2

theorem isSome_load_committed_append {txs : List Tx} {id : ℕ}
    (hload : ((committed lib txs).load id).isSome) (txs' : List Tx) :
  ((committed lib (txs ++ txs')).load id).isSome
  := by
  rw [committed_append]
  apply (existsRule lib id).historyRule.history txs' (h := []) hload

/-- **A subscription fires once.** Whatever the transactions, and however the callbacks
re-enter the contract: a committed status only changes if it was active; of two entries at
most one dispatches the callback of a subscription with its writes kept; and every proof
submitted after that one is refused because the subscription is not active. -/
theorem oneShot (lib : Libraries) (txs txs' : List Tx) (id : ℕ) :
  (∀ sub, (committed lib txs).load id = some sub →
      ∃ sub', (committed lib (txs ++ txs')).load id = some sub' ∧
        (sub'.status ≠ sub.status → sub.status = .active)) ∧
    (log lib txs).Pairwise (fun r r' =>
      Dispatches id r →
        ¬ Dispatches id r' ∧ (SubmitsFor id r'.event → RefusedAsNotActive id r'.event))
  := by
  constructor
  · intro sub hload
    by_cases hactive : sub.status = .active
    · have hsome : ((committed lib txs).load id).isSome := by simp [hload]
      have hsome := isSome_load_committed_append hsome txs'
      obtain ⟨sub', hload'⟩ := Option.isSome_iff_exists.mp hsome
      use sub', hload'
      intro _
      apply hactive
    · use sub, load_committed_append_of_settled hload hactive txs'
      simp
  · apply (spent_log txs id).pairwise

theorem oneShot_sample :
  ∃ sub', (committed .sample ([sampleSubscription] ++ [sampleSubmission])).load 1 = some sub' ∧
    (sub'.status ≠ sampleSubscribed.status → sampleSubscribed.status = .active)
  := (oneShot .sample [sampleSubscription] [sampleSubmission] 1).1 sampleSubscribed (by decide)

/-! ### Expiry -/

/-- No subscription has the status `expired`. -/
def Storage.NoneExpired (s : Storage) : Prop :=
  ∀ id sub, s.load id = some sub → sub.status ≠ .expired

theorem Storage.NoneExpired.save {s : Storage} (hs : s.NoneExpired) {id : ℕ} {sub : Subscription}
    (hsub : sub.status ≠ .expired) :
  (s.save id sub).NoneExpired
  := by
  intro k x hload
  rw [Storage.load_save] at hload
  split_ifs at hload
  · obtain rfl := Option.some.inj hload
    apply hsub
  · apply hs k x hload

theorem noneExpiredRule (lib : Libraries) :
  (contract lib).InvariantRule Storage.NoneExpired
  where
  execute := by
    intro s env message r s' hs hexec
    cases contract_execute_ok hexec with
    | created =>
        have hs' : ({ s with nextId := s.nextId + 1 } : Storage).NoneExpired := hs
        apply hs'.save
        simp [newSubscription]
    | triggered => apply hs.save (by simp)
  reply := by
    intro s env message sub s₁ error s₂ _ hexec hs₁ hreply
    obtain ⟨x, -, -, rfl⟩ := (contract_execute_ok hexec).replied hreply
    apply hs₁.save (by simp)

theorem noneExpired_of_reachable {s : Storage} (hs : Reachable lib s) :
  s.NoneExpired
  := (noneExpiredRule lib).reachable (by intro id sub h; simp at h) hs

/-- A proof submitted too late is refused, and the platform sees the storage unchanged. -/
theorem send_of_hasExpired (lib : Libraries) {env : Env} {id : ℕ} {s : Storage} {sub : Subscription}
    (hload : s.load id = some sub) (hactive : sub.status = .active)
    (hexpired : hasExpired sub env.height = true) (info : MessageInfo) (height : Height)
    (appHash proof key value : Binary) (callback : SubMsg Callback → Script) :
  let sent := (contract lib).send env ⟨info, .submitProof id height appHash proof key value⟩
    callback s
  sent.answer = .error (.error (.subscriptionExpired id)) ∧ sent.state = s
  := by
  have hexec : (contract lib).execute env ⟨info, .submitProof id height appHash proof key value⟩ s
      = (.error (.error (.subscriptionExpired id)), s.save id { sub with status := .expired }) :=
    contract_execute_expired rfl hload hactive hexpired
  simp [Contract.send, Contract.deliver, hexec]

/-- **Expiry is not recorded.** A proof submitted for an active subscription after its last
block leaves the committed storage as it was, so the subscription stays active; and no
subscription has the status `expired` in any storage of any run. -/
theorem expiry_not_recorded {txs : List Tx} {env : Env} {id : ℕ} {sub : Subscription}
    (hload : (committed lib txs).load id = some sub) (hactive : sub.status = .active)
    (hexpired : hasExpired sub env.height = true) (info : MessageInfo) (height : Height)
    (appHash proof key value : Binary) (callback : SubMsg Callback → Script)
    (text : Abort → String) :
  let submission : Tx :=
    .message env ⟨info, .submitProof id height appHash proof key value⟩ callback text
  committed lib (txs ++ [submission]) = committed lib txs ∧
    committed lib (txs ++ [submission])
      ≠ (committed lib txs).save id { sub with status := .expired } ∧
    ∀ s, Reachable lib s → ∀ k x, s.load k = some x → x.status ≠ .expired
  := by
  intro submission
  have hsend := send_of_hasExpired lib hload hactive hexpired info height appHash proof
    key value callback
  have hsame : committed lib (txs ++ [submission]) = committed lib txs := by
    rw [committed_append]
    simp only [Contract.history]
    apply Contract.transact_message_of_error hsend.1
  use hsame
  constructor
  · intro h
    rw [hsame] at h
    rw [h, Storage.load_save_self, Option.some.injEq] at hload
    rw [← hload] at hactive
    cases hactive
  · intro s hs k x hx
    apply noneExpired_of_reachable hs k x hx

/-- A subscription to the key `01` made at block 10, for 5 blocks. -/
def shortSubscription : Tx :=
  .message ⟨10⟩
    ⟨⟨"alice"⟩, .subscribe "07-tendermint-42" ["wasm"] [1] .exists "callback" [] (some 5)⟩
    (fun _ => .succeed) (fun _ => "")

/-- A proof for it submitted at block 16. -/
def lateSubmission : Tx :=
  .message ⟨16⟩ ⟨⟨"bob"⟩, .submitProof 1 ⟨2, 100⟩ [] [] [1] []⟩ (fun _ => .succeed) (fun _ => "")

/-- What is stored of it before that. -/
def shortSubscribed : Subscription where
  id := 1
  creator := "alice"
  clientId := "07-tendermint-42"
  keyPath := ["wasm"]
  watchKey := [1]
  condition := .exists
  callbackContract := "callback"
  callbackMsg := []
  status := .active
  createdAt := 10
  expiresAt := some 15

/-- The late proof finds the subscription active and leaves it active. -/
theorem lateSubmission_leaves_active :
  (committed .sample [shortSubscription]).load 1 = some shortSubscribed ∧
    shortSubscribed.status = .active ∧ hasExpired shortSubscribed 16 = true ∧
    (committed .sample [shortSubscription, lateSubmission]).load 1 = some shortSubscribed ∧
    (committed .sample [shortSubscription, lateSubmission]).load 1
      ≠ some { shortSubscribed with status := .expired }
  := by
  decide

theorem expiry_not_recorded_lateSubmission :
  committed .sample ([shortSubscription] ++ [lateSubmission])
    = committed .sample [shortSubscription]
  := by
  have hload : (committed .sample [shortSubscription]).load 1 = some shortSubscribed := by decide
  have hexpired : hasExpired shortSubscribed (⟨16⟩ : Env).height = true := by decide
  apply (expiry_not_recorded hload rfl hexpired ⟨"bob"⟩ ⟨2, 100⟩ [] [] [1] [] (fun _ => .succeed)
    (fun _ => "")).1

end Hub
