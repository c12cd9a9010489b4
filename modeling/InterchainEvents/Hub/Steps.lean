import InterchainEvents.Hub.Contract

/-!
# What an entry point of the hub contract can do

For `Subscribe` and `SubmitProof` each: the answers it can give, what holds when it gives one,
and the storage it leaves. All later results about the contract go by these.
-/

namespace Hub

open Shared

variable {lib : Libraries}

/-! ### The storage -/

@[simp]
theorem Storage.load_initial (id : ℕ) :
  Storage.initial.load id = none
  := by
  simp [Storage.load, Storage.initial]

@[simp]
theorem Storage.nextId_save (s : Storage) (id : ℕ) (sub : Subscription) :
  (s.save id sub).nextId = s.nextId
  := rfl

theorem Storage.load_save (s : Storage) (id : ℕ) (sub : Subscription) (k : ℕ) :
  (s.save id sub).load k = if k = id then some sub else s.load k
  := by
  simp only [Storage.load, Storage.save, Std.ExtTreeMap.getElem?_insert]
  by_cases h : k = id
  · simp [h]
  · have : ¬ id = k := fun h' => h h'.symm
    simp [h, this]

@[simp]
theorem Storage.load_save_self (s : Storage) (id : ℕ) (sub : Subscription) :
  (s.save id sub).load id = some sub
  := by
  rw [load_save, if_pos rfl]

theorem Storage.load_save_of_ne (s : Storage) {id k : ℕ} (sub : Subscription) (h : k ≠ id) :
  (s.save id sub).load k = s.load k
  := by
  rw [load_save, if_neg h]

/-- One subscription is stored under a number. -/
theorem Storage.load_unique {s : Storage} {id : ℕ} {sub sub' : Subscription}
    (h : s.load id = some sub) (h' : s.load id = some sub') :
  sub = sub'
  := Option.some.inj (h.symm.trans h')

/-- Saving twice is saving the second time. -/
theorem Storage.save_save (s : Storage) (id : ℕ) (sub sub' : Subscription) :
  (s.save id sub).save id sub' = s.save id sub'
  := by
  unfold Storage.save
  congr 1
  apply Std.ExtTreeMap.ext_getElem?
  intro k
  simp only [Std.ExtTreeMap.getElem?_insert]
  split_ifs <;> rfl

/-! ### Computations -/

section Computations

variable {α β : Type}

@[simp]
theorem runFrom_pure (a : α) (s : Storage) :
  (pure a : M α).runFrom s = (.ok a, s)
  := rfl

@[simp]
theorem runFrom_fail (e : ContractError) (s : Storage) :
  (fail e : M α).runFrom s = (.error (.error e), s)
  := rfl

@[simp]
theorem runFrom_fail_bind (e : ContractError) (f : α → M β) (s : Storage) :
  (fail e >>= f).runFrom s = (.error (.error e), s)
  := rfl

@[simp]
theorem runFrom_pure_bind (a : α) (f : α → M β) (s : Storage) :
  (pure a >>= f).runFrom s = (f a).runFrom s
  := rfl

@[simp]
theorem runFrom_get_bind (f : Storage → M β) (s : Storage) :
  (get >>= f).runFrom s = (f s).runFrom s
  := rfl

@[simp]
theorem runFrom_modify_bind (g : Storage → Storage) (f : Unit → M β) (s : Storage) :
  (modify g >>= f).runFrom s = (f ()).runFrom (g s)
  := rfl

@[simp]
theorem runFrom_save_bind (id : ℕ) (sub : Subscription) (f : Unit → M β) (s : Storage) :
  (save id sub >>= f).runFrom s = (f ()).runFrom (s.save id sub)
  := rfl

theorem runFrom_check_bind (r : Except ContractError α) (f : α → M β) (s : Storage) :
  (check r >>= f).runFrom s
    = match r with
      | .ok a => (f a).runFrom s
      | .error e => (.error (.error e), s)
  := by
  cases r <;> rfl

theorem runFrom_noOverflow_bind (r : Option ℕ) (f : ℕ → M β) (s : Storage) :
  (noOverflow r >>= f).runFrom s
    = match r with
      | some n => (f n).runFrom s
      | none => (.error .trap, s)
  := by
  cases r <;> rfl

end Computations

/-! ### SubmitProof -/

/-- The message to the callback of a subscription triggered by a value. -/
def callbackOf (id : ℕ) (height : Height) (value : Binary) (sub : Subscription) :
    Platform.SubMsg Callback :=
  ⟨id, sub.callbackContract,
    Utf8.encode (callbackPayload id value height sub.callbackMsg).render⟩

theorem hasExpired_eq_false_iff {sub : Subscription} {h : ℕ} :
  hasExpired sub h = false ↔ ∀ last, sub.expiresAt = some last → h ≤ last
  := by
  unfold hasExpired
  cases sub.expiresAt with
  | none => simp
  | some last => simp

/-- What a proof submitted at block height `h` must have for a stored subscription to trigger
it, as the contract checks it. -/
structure Triggers (lib : Libraries) (h : ℕ) (sub : Subscription)
    (appHash proof key value : Binary) : Prop where
  active : sub.status = .active
  unexpired : hasExpired sub h = false
  key_eq : key = sub.watchKey
  proven : verifyChainedMembership lib appHash proof sub.keyPath key value = .ok ()
  met : checkValue lib sub.condition value = .ok ()

/-- The answers to a proof submitted at block height `h`, and the storages left. -/
inductive SubmitOutcome (lib : Libraries) (h : ℕ) (s : Storage) (id : ℕ) (height : Height)
    (appHash proof key value : Binary) : Except Abort Response × Storage → Prop
  | notFound : s.load id = none →
      SubmitOutcome lib h s id height appHash proof key value
        (.error (.error (.subscriptionNotFound id)), s)
  | notActive {sub} : s.load id = some sub → sub.status ≠ .active →
      SubmitOutcome lib h s id height appHash proof key value
        (.error (.error (.subscriptionNotActive id)), s)
  | expired {sub} : s.load id = some sub → sub.status = .active → hasExpired sub h = true →
      SubmitOutcome lib h s id height appHash proof key value
        (.error (.error (.subscriptionExpired id)), s.save id { sub with status := .expired })
  | keyMismatch {sub} : s.load id = some sub → sub.status = .active → hasExpired sub h = false →
      key ≠ sub.watchKey →
      SubmitOutcome lib h s id height appHash proof key value (.error (.error .keyMismatch), s)
  | unproven {sub e} : s.load id = some sub → sub.status = .active → hasExpired sub h = false →
      key = sub.watchKey →
      verifyChainedMembership lib appHash proof sub.keyPath key value = .error e →
      SubmitOutcome lib h s id height appHash proof key value (.error (.error e), s)
  | unmet {sub e} : s.load id = some sub → sub.status = .active → hasExpired sub h = false →
      key = sub.watchKey →
      verifyChainedMembership lib appHash proof sub.keyPath key value = .ok () →
      checkValue lib sub.condition value = .error e →
      SubmitOutcome lib h s id height appHash proof key value (.error (.error e), s)
  | accepted {sub} : s.load id = some sub → Triggers lib h sub appHash proof key value →
      SubmitOutcome lib h s id height appHash proof key value
        (.ok ⟨some (callbackOf id height value sub),
          [("action", "submit_proof"), ("subscription_id", toString id),
            ("callback_contract", sub.callbackContract), ("status", "triggered")]⟩,
          s.save id { sub with status := .triggered })

/-- The checks of a proof for a stored subscription, in their order. -/
theorem executeSubmitProof_of_load (lib : Libraries) (env : Env) {s : Storage} {id : ℕ}
    {sub : Subscription} (hload : s.load id = some sub) (height : Height)
    (appHash proof key value : Binary) :
  (executeSubmitProof lib env id height appHash proof key value).runFrom s
    = if sub.status ≠ .active then (.error (.error (.subscriptionNotActive id)), s)
      else if hasExpired sub env.height = true then
        (.error (.error (.subscriptionExpired id)), s.save id { sub with status := .expired })
      else if key ≠ sub.watchKey then (.error (.error .keyMismatch), s)
      else match verifyChainedMembership lib appHash proof sub.keyPath key value with
        | .error e => (.error (.error e), s)
        | .ok () => match checkValue lib sub.condition value with
          | .error e => (.error (.error e), s)
          | .ok () =>
              (.ok ⟨some (callbackOf id height value sub),
                [("action", "submit_proof"), ("subscription_id", toString id),
                  ("callback_contract", sub.callbackContract), ("status", "triggered")]⟩,
                s.save id { sub with status := .triggered })
  := by
  unfold executeSubmitProof
  rw [runFrom_get_bind, hload]
  dsimp only
  by_cases hactive : sub.status = .active
  · rw [if_neg (not_not.mpr hactive), if_neg (not_not.mpr hactive)]
    by_cases hexpired : hasExpired sub env.height = true
    · rw [if_pos hexpired, if_pos hexpired]
      rfl
    · rw [if_neg hexpired, if_neg hexpired]
      by_cases hkey : key = sub.watchKey
      · rw [if_neg (not_not.mpr hkey), if_neg (not_not.mpr hkey), runFrom_check_bind]
        cases verifyChainedMembership lib appHash proof sub.keyPath key value with
        | error e => rfl
        | ok _ =>
            dsimp only
            rw [runFrom_check_bind]
            cases checkValue lib sub.condition value <;> rfl
      · rw [if_pos hkey, if_pos hkey]
        rfl
  · rw [if_pos hactive, if_pos hactive]
    rfl

theorem executeSubmitProof_outcome (lib : Libraries) (env : Env) (s : Storage) (id : ℕ)
    (height : Height) (appHash proof key value : Binary) :
  SubmitOutcome lib env.height s id height appHash proof key value
    ((executeSubmitProof lib env id height appHash proof key value).runFrom s)
  := by
  cases hload : s.load id with
  | none =>
      unfold executeSubmitProof
      rw [runFrom_get_bind, hload]
      apply SubmitOutcome.notFound hload
  | some sub =>
      rw [executeSubmitProof_of_load lib env hload]
      split_ifs with hactive hexpired hkey
      · apply SubmitOutcome.notActive hload hactive
      · apply SubmitOutcome.expired hload (not_not.mp hactive) hexpired
      · rw [Bool.not_eq_true] at hexpired
        apply SubmitOutcome.keyMismatch hload (not_not.mp hactive) hexpired hkey
      · rw [not_not] at hactive hkey
        rw [Bool.not_eq_true] at hexpired
        cases hproof : verifyChainedMembership lib appHash proof sub.keyPath key value with
        | error e => apply SubmitOutcome.unproven hload hactive hexpired hkey hproof
        | ok _ =>
            cases hvalue : checkValue lib sub.condition value with
            | error e => apply SubmitOutcome.unmet hload hactive hexpired hkey hproof hvalue
            | ok _ => exact .accepted hload ⟨hactive, hexpired, hkey, hproof, hvalue⟩

/-- A proof that triggers the stored subscription passes all checks. -/
theorem executeSubmitProof_of_triggers {env : Env} {s : Storage} {id : ℕ} {sub : Subscription}
    {appHash proof key value : Binary} (hload : s.load id = some sub)
    (h : Triggers lib env.height sub appHash proof key value) (height : Height) :
  (executeSubmitProof lib env id height appHash proof key value).runFrom s
    = (.ok ⟨some (callbackOf id height value sub),
        [("action", "submit_proof"), ("subscription_id", toString id),
          ("callback_contract", sub.callbackContract), ("status", "triggered")]⟩,
        s.save id { sub with status := .triggered })
  := by
  rw [executeSubmitProof_of_load lib env hload, if_neg (not_not.mpr h.active),
    if_neg (by simp [h.unexpired]), if_neg (not_not.mpr h.key_eq), h.proven]
  dsimp only
  rw [h.met]

/-- A proof is accepted if and only if it triggers the stored subscription. -/
theorem executeSubmitProof_ok_iff (lib : Libraries) (env : Env) (s : Storage) (id : ℕ)
    (height : Height) (appHash proof key value : Binary) :
  (∃ r, ((executeSubmitProof lib env id height appHash proof key value).runFrom s).1 = .ok r)
    ↔ ∃ sub, s.load id = some sub ∧ Triggers lib env.height sub appHash proof key value
  := by
  constructor
  · rintro ⟨r, hr⟩
    have hout := executeSubmitProof_outcome lib env s id height appHash proof key value
    generalize (executeSubmitProof lib env id height appHash proof key value).runFrom s = o
      at hout hr
    cases hout with
    | accepted hload htriggers => exact ⟨_, hload, htriggers⟩
    | _ => cases hr
  · rintro ⟨sub, hload, h⟩
    rw [executeSubmitProof_of_triggers hload h]
    exact ⟨_, rfl⟩

/-! ### Subscribe -/

/-- The subscription made at block height `h` under the number `id`. -/
def newSubscription (h : ℕ) (info : MessageInfo) (clientId : String) (keyPath : List String)
    (watchKey : Binary) (condition : SubscriptionCondition) (callbackContract : String)
    (callbackMsg : Binary) (expiresAfterBlocks : Option ℕ) (id : ℕ) : Subscription where
  id := id
  creator := info.sender
  clientId := clientId
  keyPath := keyPath
  watchKey := watchKey
  condition := condition
  callbackContract := callbackContract
  callbackMsg := callbackMsg
  status := .active
  createdAt := h
  expiresAt := expiresAfterBlocks.map (h + ·)

/-- The storage with a subscription added under the next free number. -/
def Storage.create (s : Storage) (sub : Subscription) : Storage :=
  ({ s with nextId := s.nextId + 1 } : Storage).save s.nextId sub

@[simp]
theorem Storage.nextId_create (s : Storage) (sub : Subscription) :
  (s.create sub).nextId = s.nextId + 1
  := rfl

theorem Storage.load_create (s : Storage) (sub : Subscription) (k : ℕ) :
  (s.create sub).load k = if k = s.nextId then some sub else s.load k
  := Storage.load_save _ _ _ _

/-- The answers to a subscription asked for at block height `h`, and the storages left. -/
inductive SubscribeOutcome (h : ℕ) (s : Storage) (info : MessageInfo) (clientId : String)
    (keyPath : List String) (watchKey : Binary) (condition : SubscriptionCondition)
    (callbackContract : String) (callbackMsg : Binary) (expiresAfterBlocks : Option ℕ) :
    Except Abort Response × Storage → Prop
  | emptyKeyPath : keyPath = [] →
      SubscribeOutcome h s info clientId keyPath watchKey condition callbackContract callbackMsg
        expiresAfterBlocks (.error (.error .emptyKeyPath), s)
  | emptyWatchKey : keyPath ≠ [] → watchKey = [] →
      SubscribeOutcome h s info clientId keyPath watchKey condition callbackContract callbackMsg
        expiresAfterBlocks (.error (.error .emptyWatchKey), s)
  | emptyCallbackContract : keyPath ≠ [] → watchKey ≠ [] → callbackContract = "" →
      SubscribeOutcome h s info clientId keyPath watchKey condition callbackContract callbackMsg
        expiresAfterBlocks (.error (.error .emptyCallbackContract), s)
  | idOverflow : keyPath ≠ [] → watchKey ≠ [] → callbackContract ≠ "" →
      2 ^ 64 ≤ s.nextId + 1 →
      SubscribeOutcome h s info clientId keyPath watchKey condition callbackContract callbackMsg
        expiresAfterBlocks (.error .trap, s)
  | expiryOverflow {blocks} : keyPath ≠ [] → watchKey ≠ [] → callbackContract ≠ "" →
      s.nextId + 1 < 2 ^ 64 → expiresAfterBlocks = some blocks → 2 ^ 64 ≤ h + blocks →
      SubscribeOutcome h s info clientId keyPath watchKey condition callbackContract callbackMsg
        expiresAfterBlocks (.error .trap, { s with nextId := s.nextId + 1 })
  | created : keyPath ≠ [] → watchKey ≠ [] → callbackContract ≠ "" →
      s.nextId + 1 < 2 ^ 64 → (∀ blocks ∈ expiresAfterBlocks, h + blocks < 2 ^ 64) →
      SubscribeOutcome h s info clientId keyPath watchKey condition callbackContract callbackMsg
        expiresAfterBlocks
        (.ok ⟨none, [("action", "subscribe"), ("subscription_id", toString s.nextId)]⟩,
          s.create (newSubscription h info clientId keyPath watchKey condition callbackContract
            callbackMsg expiresAfterBlocks s.nextId))

theorem executeSubscribe_outcome (env : Env) (s : Storage) (info : MessageInfo)
    (clientId : String) (keyPath : List String) (watchKey : Binary)
    (condition : SubscriptionCondition) (callbackContract : String) (callbackMsg : Binary)
    (expiresAfterBlocks : Option ℕ) :
  SubscribeOutcome env.height s info clientId keyPath watchKey condition callbackContract
    callbackMsg expiresAfterBlocks
    ((executeSubscribe env info clientId keyPath watchKey condition callbackContract callbackMsg
      expiresAfterBlocks).runFrom s)
  := by
  unfold executeSubscribe
  by_cases hpath : keyPath = []
  · rw [if_pos hpath]
    apply SubscribeOutcome.emptyKeyPath hpath
  rw [if_neg hpath]
  by_cases hkey : watchKey = []
  · rw [if_pos hkey]
    apply SubscribeOutcome.emptyWatchKey hpath hkey
  rw [if_neg hkey]
  by_cases hcallback : callbackContract = ""
  · rw [if_pos hcallback]
    apply SubscribeOutcome.emptyCallbackContract hpath hkey hcallback
  rw [if_neg hcallback]
  dsimp only
  rw [runFrom_get_bind, runFrom_noOverflow_bind]
  by_cases hid : s.nextId + 1 < 2 ^ 64
  · rw [checkedAdd, if_pos hid]
    dsimp only
    rw [runFrom_modify_bind]
    cases expiresAfterBlocks with
    | none => apply SubscribeOutcome.created hpath hkey hcallback hid (by simp)
    | some blocks =>
        dsimp only
        rw [bind_map_left, runFrom_noOverflow_bind]
        by_cases hblocks : env.height + blocks < 2 ^ 64
        · rw [checkedAdd, if_pos hblocks]
          apply SubscribeOutcome.created hpath hkey hcallback hid (by simpa using hblocks)
        · rw [checkedAdd, if_neg hblocks]
          apply SubscribeOutcome.expiryOverflow hpath hkey hcallback hid rfl (by omega)
  · rw [checkedAdd, if_neg hid]
    apply SubscribeOutcome.idOverflow hpath hkey hcallback (by omega)

/-! ### The contract -/

/-- A call that succeeds, the message it asks for and the storage it leaves: it creates a
subscription, or triggers one. -/
inductive Succeeds (lib : Libraries) (env : Env) (call : Call) (s : Storage) :
    Option (Platform.SubMsg Callback) → Storage → Prop
  | created {clientId keyPath watchKey condition callbackContract callbackMsg
        expiresAfterBlocks} :
      call.msg = .subscribe clientId keyPath watchKey condition callbackContract callbackMsg
        expiresAfterBlocks →
      keyPath ≠ [] → watchKey ≠ [] → callbackContract ≠ "" →
      s.nextId + 1 < 2 ^ 64 → (∀ blocks ∈ expiresAfterBlocks, env.height + blocks < 2 ^ 64) →
      Succeeds lib env call s none
        (s.create (newSubscription env.height call.info clientId keyPath watchKey condition
          callbackContract callbackMsg expiresAfterBlocks s.nextId))
  | triggered {id height appHash proof key value sub} :
      call.msg = .submitProof id height appHash proof key value →
      s.load id = some sub → Triggers lib env.height sub appHash proof key value →
      Succeeds lib env call s (some (callbackOf id height value sub))
        (s.save id { sub with status := .triggered })

theorem contract_execute_ok {env : Env} {call : Call} {s s' : Storage}
    {r : Option (Platform.SubMsg Callback)} (h : (contract lib).execute env call s = (.ok r, s')) :
  Succeeds lib env call s r s'
  := by
  obtain ⟨info, msg⟩ := call
  cases msg with
  | subscribe clientId keyPath watchKey condition callbackContract callbackMsg
      expiresAfterBlocks =>
      have hout := executeSubscribe_outcome env s info clientId keyPath watchKey condition
        callbackContract callbackMsg expiresAfterBlocks
      simp only [contract, execute] at h
      generalize (executeSubscribe env info clientId keyPath watchKey condition callbackContract
        callbackMsg expiresAfterBlocks).runFrom s = o at h hout
      cases hout with
      | created hpath hkey hcallback hid hblocks =>
          simp only [Except.map, Prod.mk.injEq, Except.ok.injEq] at h
          obtain ⟨rfl, rfl⟩ := h
          apply Succeeds.created rfl hpath hkey hcallback hid hblocks
      | _ => simp [Except.map] at h
  | submitProof id height appHash proof key value =>
      have hout := executeSubmitProof_outcome lib env s id height appHash proof key value
      simp only [contract, execute] at h
      generalize (executeSubmitProof lib env id height appHash proof key value).runFrom s = o
        at h hout
      cases hout with
      | accepted hload htriggers =>
          simp only [Except.map, Prod.mk.injEq, Except.ok.injEq] at h
          obtain ⟨rfl, rfl⟩ := h
          apply Succeeds.triggered rfl hload htriggers
      | _ => simp [Except.map] at h

/-- A proof for a subscription that is not active is refused as such. -/
theorem contract_execute_notActive {env : Env} {call : Call} {s : Storage} {id : ℕ}
    {height : Height} {appHash proof key value : Binary} {sub : Subscription}
    (hmsg : call.msg = .submitProof id height appHash proof key value)
    (hload : s.load id = some sub) (hstatus : sub.status ≠ .active) :
  (contract lib).execute env call s = (.error (.error (.subscriptionNotActive id)), s)
  := by
  simp only [contract, hmsg, execute]
  rw [executeSubmitProof_of_load lib env hload, if_pos hstatus]
  rfl

/-- A proof for a subscription that is active and has expired is refused as such. -/
theorem contract_execute_expired {env : Env} {call : Call} {s : Storage} {id : ℕ}
    {height : Height} {appHash proof key value : Binary} {sub : Subscription}
    (hmsg : call.msg = .submitProof id height appHash proof key value)
    (hload : s.load id = some sub) (hactive : sub.status = .active)
    (hexpired : hasExpired sub env.height = true) :
  (contract lib).execute env call s
    = (.error (.error (.subscriptionExpired id)), s.save id { sub with status := .expired })
  := by
  simp only [contract, hmsg, execute]
  rw [executeSubmitProof_of_load lib env hload, if_neg (not_not.mpr hactive), if_pos hexpired]
  rfl

/-- A proof that triggers the stored subscription is accepted. -/
theorem contract_execute_of_triggers {env : Env} (info : MessageInfo) {s : Storage} {id : ℕ}
    {appHash proof key value : Binary} {sub : Subscription} (hload : s.load id = some sub)
    (h : Triggers lib env.height sub appHash proof key value) (height : Height) :
  (contract lib).execute env ⟨info, .submitProof id height appHash proof key value⟩ s
    = (.ok (some (callbackOf id height value sub)), s.save id { sub with status := .triggered })
  := by
  simp only [contract, execute]
  rw [executeSubmitProof_of_triggers hload h]
  rfl

/-- A reply marks the subscription as failed, if there is one. -/
theorem contract_reply (lib : Libraries) (env : Env) (s : Storage) (id : ℕ) (error : String) :
  (contract lib).reply env id error s
    = match s.load id with
      | some sub => (.ok (), s.save id { sub with status := .failed error })
      | none => (.error (.error (.std (lib.kind id))), s)
  := by
  simp only [contract, reply]
  rw [runFrom_get_bind]
  cases s.load id <;> rfl

end Hub
