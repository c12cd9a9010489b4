import InterchainEvents.Hub.Invariant
import InterchainEvents.Hub.Semantics

/-!
# What triggers a subscription

A proof is accepted exactly when it meets the subscription it is for (`Meets`), and every
subscription that is triggered or has failed in a committed storage was met: the log has the
call that made it and, later, a proof that meets what that call asked for
(`trigger_sound_and_complete`).
-/

namespace Hub

open Shared Platform

variable {lib : Libraries}

/-- A proof submitted at block height `h` meets a subscription: it comes in time, it proves a
value under the key the subscription watches, and the value satisfies the condition. -/
structure Meets (lib : Libraries) (h : ℕ) (expiresAt : Option ℕ) (keyPath : List String)
    (watchKey : Binary) (condition : SubscriptionCondition) (appHash proof key value : Binary) :
    Prop where
  unexpired : ∀ last, expiresAt = some last → h ≤ last
  key_eq : key = watchKey
  proven : verifyChainedMembership lib appHash proof keyPath key value = .ok ()
  satisfies : Satisfies lib condition value

theorem triggers_iff {h : ℕ} {sub : Subscription} {appHash proof key value : Binary} :
  Triggers lib h sub appHash proof key value
    ↔ sub.status = .active ∧ Meets lib h sub.expiresAt sub.keyPath sub.watchKey sub.condition
        appHash proof key value
  := by
  constructor
  · intro ht
    use ht.active
    exact ⟨hasExpired_eq_false_iff.mp ht.unexpired, ht.key_eq, ht.proven,
      checkValue_ok_iff.mp ht.met⟩
  · rintro ⟨hactive, hm⟩
    exact ⟨hactive, hasExpired_eq_false_iff.mpr hm.unexpired, hm.key_eq, hm.proven,
      checkValue_ok_iff.mpr hm.satisfies⟩

/-! ### The history of a subscription -/

/-- The entry that made a subscription, of which only the status may have changed since. -/
def Creates (id : ℕ) (sub : Subscription) (r : Record) : Prop :=
  ∃ env info clientId keyPath watchKey condition callbackContract callbackMsg expiresAfterBlocks
      before,
    before.nextId = id ∧
      r = ⟨.execute env ⟨info, .subscribe clientId keyPath watchKey condition callbackContract
        callbackMsg expiresAfterBlocks⟩ before (.ok none), true⟩ ∧
      sub = { newSubscription env.height info clientId keyPath watchKey condition callbackContract
        callbackMsg expiresAfterBlocks id with status := sub.status }

/-- An entry that triggered a subscription with a proof that meets it. -/
def Fires (lib : Libraries) (id : ℕ) (sub : Subscription) (r : Record) : Prop :=
  ∃ env info height appHash proof key value before answer,
    r = ⟨.execute env ⟨info, .submitProof id height appHash proof key value⟩ before
      (.ok (some answer)), true⟩ ∧
      Meets lib env.height sub.expiresAt sub.keyPath sub.watchKey sub.condition
        appHash proof key value

/-- The history explains what is stored of a subscription: it was made, and if it is no longer
active, it was triggered later. -/
def Explains (lib : Libraries) (h : List Record) (id : ℕ) (sub : Subscription) : Prop :=
  ∃ l r l', h = l ++ r :: l' ∧ Creates id sub r ∧
    (sub.status ≠ .active → ∃ r' ∈ l', Fires lib id sub r')

/-- The history explains the storage. -/
def Explained (lib : Libraries) (h : List Record) (s : Storage) : Prop :=
  ∀ id sub, s.load id = some sub → Explains lib h id sub

theorem Creates.withStatus {id : ℕ} {sub : Subscription} {r : Record} (h : Creates id sub r)
    (status : SubscriptionStatus) :
  Creates id { sub with status := status } r
  := by
  obtain ⟨env, info, clientId, keyPath, watchKey, condition, callbackContract, callbackMsg,
    expiresAfterBlocks, before, hid, hr, hsub⟩ := h
  refine ⟨env, info, clientId, keyPath, watchKey, condition, callbackContract, callbackMsg,
    expiresAfterBlocks, before, hid, hr, ?_⟩
  rw [hsub]

theorem Explains.append {h : List Record} {id : ℕ} {sub : Subscription}
    (he : Explains lib h id sub) (l₁ : List Record) :
  Explains lib (h ++ l₁) id sub
  := by
  obtain ⟨l, r, l', rfl, hr, hfires⟩ := he
  refine ⟨l, r, l' ++ l₁, by simp, hr, ?_⟩
  intro hsub
  obtain ⟨r', hr', h'⟩ := hfires hsub
  exact ⟨r', List.mem_append_left _ hr', h'⟩

/-- A subscription that was explained and is triggered now. -/
theorem Explains.fire {h : List Record} {id : ℕ} {sub : Subscription} (he : Explains lib h id sub)
    {r' : Record} (hr' : Fires lib id sub r') (status : SubscriptionStatus) :
  Explains lib (h ++ [r']) id { sub with status := status }
  := by
  obtain ⟨l, r, l', rfl, hr, -⟩ := he
  refine ⟨l, r, l' ++ [r'], by simp, hr.withStatus status, ?_⟩
  intro _
  exact ⟨r', by simp, hr'⟩

/-- A subscription that was explained and not active has another such status now. -/
theorem Explains.withStatus {h : List Record} {id : ℕ} {sub : Subscription}
    (he : Explains lib h id sub) (hsub : sub.status ≠ .active) (status : SubscriptionStatus) :
  Explains lib h id { sub with status := status }
  := by
  obtain ⟨l, r, l', rfl, hr, hfires⟩ := he
  exact ⟨l, r, l', rfl, hr.withStatus status, fun _ => hfires hsub⟩

theorem explainedRule (lib : Libraries) :
  (contract lib).HistoryRule (Explained lib)
  where
  discard hs _ id sub hload := (hs id sub hload).append _
  refused hs _ id sub hload := (hs id sub hload).append _
  executed := by
    intro h s env message r s' hs hexec id sub hload
    obtain ⟨info, msg⟩ := message
    cases contract_execute_ok hexec with
    | @created clientId keyPath watchKey condition callbackContract callbackMsg
        expiresAfterBlocks hmsg =>
        obtain rfl : msg = _ := hmsg
        rw [Storage.load_create] at hload
        split_ifs at hload with hid
        · obtain rfl := Option.some.inj hload
          refine ⟨h, _, [], rfl, ?_, ?_⟩
          · exact ⟨env, info, clientId, keyPath, watchKey, condition, callbackContract, callbackMsg,
              expiresAfterBlocks, s, hid.symm, rfl, by rw [hid]⟩
          · intro hsub
            exact absurd rfl hsub
        · apply (hs id sub hload).append
    | @triggered id' height appHash proof key value sub' hmsg hload' htriggers =>
        obtain rfl : msg = _ := hmsg
        rw [Storage.load_save] at hload
        split_ifs at hload with hid
        · subst hid
          obtain rfl := Option.some.inj hload
          apply (hs id sub' hload').fire
          exact ⟨env, info, height, appHash, proof, key, value, s, _, rfl,
            (triggers_iff.mp htriggers).2⟩
        · apply (hs id sub hload).append
  replied := by
    intro h s env message sub s₁ l error s₂ hs hexec hs₁ hreply id x hload
    obtain ⟨y, -, hload₁, rfl⟩ := (contract_execute_ok hexec).replied hreply
    apply Explains.append
    rw [Storage.load_save] at hload
    split_ifs at hload with hid
    · subst hid
      obtain rfl := Option.some.inj hload
      apply (hs₁ _ _ hload₁).withStatus (by simp)
    · apply hs₁ id x hload
  replyRefused hs _ hs₁ _ id sub hload := (hs₁ id sub hload).append _

theorem explained_committed (lib : Libraries) (txs : List Tx) :
  Explained lib (log lib txs) (committed lib txs)
  := by
  apply (explainedRule lib).history txs (h := [])
  intro id sub hload
  simp at hload

/-- **Trigger soundness and completeness.** In any storage, a submitted proof is accepted if
and only if the subscription it is for exists, is active and is met. In any run, each
subscription that is triggered or has failed in the committed storage was made by an entry of
the log and triggered by a later one, whose proof meets the key path, the watch key, the
condition and the expiry given when it was made. -/
theorem trigger_sound_and_complete (lib : Libraries) :
  (∀ (env : Env) (s : Storage) (id : ℕ) (height : Height) (appHash proof key value : Binary),
    (∃ r, ((executeSubmitProof lib env id height appHash proof key value).runFrom s).1 = .ok r)
      ↔ ∃ sub, s.load id = some sub ∧ sub.status = .active ∧
          Meets lib env.height sub.expiresAt sub.keyPath sub.watchKey sub.condition
            appHash proof key value) ∧
    ∀ (txs : List Tx) (id : ℕ) (sub : Subscription), (committed lib txs).load id = some sub →
      (sub.status = .triggered ∨ ∃ error, sub.status = .failed error) →
        ∃ (l l' l'' : List Record) (envS : Env) (infoS : MessageInfo) (clientId : String)
          (keyPath : List String) (watchKey : Binary) (condition : SubscriptionCondition)
          (callbackContract : String) (callbackMsg : Binary) (expiresAfterBlocks : Option ℕ)
          (beforeS : Storage) (envP : Env) (infoP : MessageInfo) (height : Height)
          (appHash proof key value : Binary) (beforeP : Storage) (callback : SubMsg Callback),
          log lib txs
            = l ++ ⟨.execute envS ⟨infoS, .subscribe clientId keyPath watchKey condition
                callbackContract callbackMsg expiresAfterBlocks⟩ beforeS (.ok none), true⟩
              :: l' ++ ⟨.execute envP ⟨infoP, .submitProof id height appHash proof key value⟩
                beforeP (.ok (some callback)), true⟩ :: l'' ∧
            beforeS.nextId = id ∧
            Meets lib envP.height (expiresAfterBlocks.map (envS.height + ·)) keyPath watchKey
              condition appHash proof key value
  := by
  constructor
  · intro env s id height appHash proof key value
    simp only [executeSubmitProof_ok_iff, triggers_iff]
  · intro txs id sub hload hstatus
    have hne : sub.status ≠ .active := by
      rcases hstatus with h | ⟨error, h⟩
      · simp [h]
      · simp [h]
    obtain ⟨l, r, rest, hlog, hcreates, hfires⟩ := explained_committed lib txs id sub hload
    obtain ⟨r', hr', hfired⟩ := hfires hne
    obtain ⟨l', l'', rfl⟩ := List.append_of_mem hr'
    obtain ⟨envS, infoS, clientId, keyPath, watchKey, condition, callbackContract, callbackMsg,
      expiresAfterBlocks, beforeS, hid, rfl, hsub⟩ := hcreates
    obtain ⟨envP, infoP, height, appHash, proof, key, value, beforeP, callback, rfl, hmeets⟩ :=
      hfired
    rw [hsub] at hmeets
    refine ⟨l, l', l'', envS, infoS, clientId, keyPath, watchKey, condition, callbackContract,
      callbackMsg, expiresAfterBlocks, beforeS, envP, infoP, height, appHash, proof, key, value,
      beforeP, callback, ?_, hid, hmeets⟩
    rw [hlog]
    simp

theorem trigger_sound_and_complete_sample :
  ∃ r ∈ log .sample [sampleSubscription, sampleSubmission], r.kept = true ∧
    ∃ env info height appHash proof key value before callback,
      r.event = .execute env ⟨info, .submitProof 1 height appHash proof key value⟩ before
        (.ok (some callback))
  := by
  obtain ⟨l, l', l'', envS, infoS, clientId, keyPath, watchKey, condition, callbackContract,
    callbackMsg, expiresAfterBlocks, beforeS, envP, infoP, height, appHash, proof, key, value,
    beforeP, callback, hlog, -, -⟩ :=
    (trigger_sound_and_complete .sample).2 [sampleSubscription, sampleSubmission] 1
      { sampleSubscribed with status := .triggered } (by decide +kernel) (.inl rfl)
  rw [hlog]
  exact ⟨_, List.mem_append_right _ List.mem_cons_self, rfl, envP, infoP, height, appHash, proof,
    key, value, beforeP, callback, rfl⟩

end Hub
