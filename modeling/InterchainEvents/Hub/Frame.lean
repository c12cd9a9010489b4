import InterchainEvents.Platform.Trace
import InterchainEvents.Hub.Invariant

/-!
# What the operations leave alone

Every operation whose writes are kept adds one subscription under the next free number, or
gives one subscription another status, and leaves everything else alone (`Storage.Changes`).
So of a subscription nothing but the status ever changes (`Storage.Extends`), and a proof is
never submitted for one without a key path (`frame`).
-/

namespace Hub

open Shared Platform

variable {lib : Libraries}

/-! ### Single operations -/

/-- One subscription is added under the next free number, or one has another status now. -/
inductive Storage.Changes (s s' : Storage) : Prop
  | added {sub : Subscription} : s.load s.nextId = none → WellFormed s.nextId sub →
      s'.nextId = s.nextId + 1 →
      (∀ k, s'.load k = if k = s.nextId then some sub else s.load k) → Changes s s'
  | restated {id : ℕ} {sub : Subscription} {status : SubscriptionStatus} :
      s.load id = some sub → s'.nextId = s.nextId →
      (∀ k, s'.load k = if k = id then some { sub with status := status } else s.load k) →
      Changes s s'

/-- No subscription is stored under the next free number. -/
theorem Storage.Sound.load_nextId {s : Storage} (hs : s.Sound) :
  s.load s.nextId = none
  := by
  have h := hs.isSome_load s.nextId
  simpa using h

theorem Storage.changes_save {s : Storage} {id : ℕ} {sub : Subscription}
    (hload : s.load id = some sub) (status : SubscriptionStatus) :
  s.Changes (s.save id { sub with status := status })
  := .restated hload rfl (fun k => Storage.load_save _ _ _ k)

theorem Succeeds.changes {env : Env} {call : Call} {s s' : Storage} {r : Option (SubMsg Callback)}
    (h : Succeeds lib env call s r s') (hs : s.Sound) :
  s.Changes s'
  := by
  cases h with
  | created _ hpath hkey hcallback =>
      exact .added hs.load_nextId ⟨rfl, hpath, hkey, hcallback⟩ rfl
        (fun k => Storage.load_create _ _ k)
  | triggered _ hload => apply Storage.changes_save hload

theorem changesRule (lib : Libraries) :
  (contract lib).StepRule Storage.Sound Storage.Changes
  where
  invariant := soundRule lib
  execute hs hexec := (contract_execute_ok hexec).changes hs
  reply hs hexec hs₁ hreply := by
    obtain ⟨x, -, hload₁, rfl⟩ := (contract_execute_ok hexec).replied hreply
    apply Storage.changes_save hload₁

/-! ### Whole runs -/

/-- What is stored of each subscription is stored later on too, its status apart. -/
def Storage.Extends (s s' : Storage) : Prop :=
  s.nextId ≤ s'.nextId ∧
    ∀ id sub, s.load id = some sub → ∃ status, s'.load id = some { sub with status := status }

theorem Storage.Extends.refl (s : Storage) :
  s.Extends s
  := by
  use Nat.le_refl _
  intro id sub hload
  use sub.status, hload

theorem Storage.Extends.trans {s s' s'' : Storage} (h : s.Extends s') (h' : s'.Extends s'') :
  s.Extends s''
  := by
  use Nat.le_trans h.1 h'.1
  intro id sub hload
  obtain ⟨status, hload'⟩ := h.2 id sub hload
  obtain ⟨status', hload''⟩ := h'.2 id _ hload'
  use status', hload''

theorem Storage.Changes.extends {s s' : Storage} (h : s.Changes s') :
  s.Extends s'
  := by
  cases h with
  | added hnone _ hnext hload =>
      use by omega
      intro id x hx
      have hne : id ≠ s.nextId := by
        rintro rfl
        simp [hnone] at hx
      use x.status
      rw [hload, if_neg hne, hx]
  | @restated id sub status hsub hnext hload =>
      use by omega
      intro k x hx
      by_cases hk : k = id
      · subst hk
        obtain rfl := Storage.load_unique hsub hx
        use status
        rw [hload, if_pos rfl]
      · use x.status
        rw [hload, if_neg hk, hx]

theorem extends_of_leads {s₀ s : Storage} {h : List Record}
    (hs : Leads Storage.Changes s₀ h s) :
  s₀.Extends s
  := hs.invariant (fun _ _ hstep hs => hs.trans hstep.extends) (.refl s₀)

theorem leads_committed (lib : Libraries) (txs txs' : List Tx) :
  ∃ l, log lib (txs ++ txs') = log lib txs ++ l ∧
    Leads Storage.Changes (committed lib txs) l (committed lib (txs ++ txs'))
  := by
  have hs := sound_of_reachable (reachable_committed lib txs)
  refine ⟨((contract lib).history txs' (committed lib txs)).2, ?_, ?_⟩
  · rw [log, (contract lib).history_append]
    rfl
  · rw [committed_append]
    apply Contract.leads_history (changesRule lib) txs' hs

/-- What was committed of a subscription is committed later on too, its status apart. -/
theorem extends_committed (lib : Libraries) (txs txs' : List Tx) :
  (committed lib txs).Extends (committed lib (txs ++ txs'))
  := by
  obtain ⟨l, -, hl⟩ := leads_committed lib txs txs'
  apply extends_of_leads hl

/-- From a storage on, entry points extend it. -/
theorem extendsRule (lib : Libraries) (s₀ : Storage) :
  (contract lib).InvariantRule (fun s => s.Sound ∧ s₀.Extends s)
  where
  execute := by
    rintro s env message r s' ⟨hs, hext⟩ hexec
    use (soundRule lib).execute hs hexec
    apply hext.trans ((changesRule lib).execute hs hexec).extends
  reply := by
    rintro s env message sub s₁ error s₂ ⟨hs, -⟩ hexec ⟨hs₁, hext₁⟩ hreply
    use (soundRule lib).reply hs hexec hs₁ hreply
    apply hext₁.trans ((changesRule lib).reply hs hexec hs₁ hreply).extends

/-- What is stored of a subscription is stored in every storage reached from there, its status
apart. -/
theorem extends_of_reachable {s₀ s : Storage} (hs₀ : s₀.Sound)
    (hs : (contract lib).Reachable s₀ s) :
  s.Sound ∧ s₀.Extends s
  := (extendsRule lib s₀).reachable ⟨hs₀, .refl s₀⟩ hs

/-! ### Errors -/

section Errors

variable {ε α β : Type} {P : ε → Prop}

/-- The errors of a computation are those of its first part and those of the rest. -/
theorem error_bind {x : Except ε α} {f : α → Except ε β} (hx : ∀ e, x = .error e → P e)
    (hf : ∀ a e, f a = .error e → P e) (e : ε) (h : (x >>= f) = .error e) :
  P e
  := by
  cases x with
  | error e' =>
      obtain rfl := Except.error.inj h
      apply hx _ rfl
  | ok a => apply hf a e h

theorem error_mapError {x : Except α β} {g : α → ε} (hg : ∀ a, P (g a)) (e : ε)
    (h : x.mapError g = .error e) :
  P e
  := by
  cases x with
  | error a =>
      obtain rfl := Except.error.inj h
      apply hg
  | ok b => cases h

end Errors

/-- The errors that the check of a proof and the check of a condition can give. -/
def ContractError.OfCheck : ContractError → Prop
  | .valueMismatch | .thresholdNotMet | .valueDecodeError _ | .proofVerificationFailed _
  | .protoDecode _ => True
  | _ => False

/-- With a key path, the verification gives no other errors. -/
theorem verify_ofCheck {appHash proof : Binary} {keyPath : List String} {key value : Binary}
    (hpath : keyPath ≠ []) (e : ContractError)
    (h : verifyChainedMembership lib appHash proof keyPath key value = .error e) :
  e.OfCheck
  := by
  obtain ⟨store, path, rfl⟩ := List.exists_cons_of_ne_nil hpath
  revert e
  apply error_bind
  · apply error_bind
    · apply error_mapError
      intro text
      trivial
    · intro proofs e h
      split at h
      · cases h
      · obtain rfl := Except.error.inj h
        trivial
  intro raw
  apply error_bind
  · apply error_mapError
    intro text
    trivial
  intro c
  apply error_bind
  · apply error_mapError
    intro text
    trivial
  intro d e h
  split at h
  · obtain rfl := Except.error.inj h
    trivial
  · revert e
    apply error_bind
    · apply error_mapError
      intro text
      trivial
    intro root e h
    split_ifs at h
    · obtain rfl := Except.error.inj h
      trivial
    · obtain rfl := Except.error.inj h
      trivial

theorem parseU128_ofCheck (bytes : Binary) (e : ContractError)
    (h : parseU128 bytes = .error e) :
  e.OfCheck
  := by
  unfold parseU128 at h
  split at h
  · obtain rfl := Except.error.inj h
    trivial
  · dsimp only at h
    split at h
    · cases h
    · obtain rfl := Except.error.inj h
      trivial

theorem compareValues_ofCheck (a b : Binary) (encoding : ValueEncoding) (e : ContractError)
    (h : compareValues a b encoding = .error e) :
  e.OfCheck
  := by
  cases encoding with
  | bytes => cases h
  | string =>
      simp only [compareValues] at h
      split at h
      · obtain rfl := Except.error.inj h
        trivial
      · obtain rfl := Except.error.inj h
        trivial
      · cases h
  | numeric =>
      revert e
      apply error_bind (parseU128_ofCheck a)
      intro m
      apply error_bind (parseU128_ofCheck b)
      intro n e h
      cases h

theorem walk_ofCheck (path : String) (segments : List (List Char)) (v : SerdeJson.Value)
    (e : ContractError) (h : walk path segments v = .error e) :
  e.OfCheck
  := by
  induction segments generalizing v with
  | nil => cases h
  | cons segment segments ih =>
      simp only [walk] at h
      split at h
      · apply ih _ h
      · obtain rfl := Except.error.inj h
        trivial

theorem checkValue_ofCheck {condition : SubscriptionCondition} {value : Binary}
    (e : ContractError) (h : checkValue lib condition value = .error e) :
  e.OfCheck
  := by
  revert e
  cases condition with
  | «exists» =>
      intro e h
      cases h
  | equals expected =>
      intro e h
      simp only [checkValue] at h
      split_ifs at h
      obtain rfl := Except.error.inj h
      trivial
  | greaterThan threshold encoding | lessThan threshold encoding =>
      apply error_bind (compareValues_ofCheck _ _ _)
      intro o e h
      split_ifs at h
      obtain rfl := Except.error.inj h
      trivial
  | jsonPathEquals path expected =>
      unfold checkValue
      cases SerdeJson.fromSlice lib.float value with
      | none =>
          intro e h
          obtain rfl := Except.error.inj h
          trivial
      | some json =>
          apply error_bind (walk_ofCheck _ _ _)
          intro current e h
          split_ifs at h
          obtain rfl := Except.error.inj h
          trivial

/-- No proof submitted on a sound storage finds a subscription without a key path. -/
theorem submitProof_ne_emptyKeyPath {s : Storage} (hs : s.Sound) (env : Env) (id : ℕ)
    (height : Height) (appHash proof key value : Binary) :
  ((executeSubmitProof lib env id height appHash proof key value).runFrom s).1
    ≠ .error (.error .emptyKeyPath)
  := by
  have hout := executeSubmitProof_outcome lib env s id height appHash proof key value
  intro h
  generalize (executeSubmitProof lib env id height appHash proof key value).runFrom s = o at h hout
  cases hout with
  | unproven hload _ _ _ hproof =>
      cases h
      apply verify_ofCheck (hs.wellFormed hload).keyPath_ne _ hproof
  | unmet _ _ _ _ _ hvalue =>
      cases h
      apply checkValue_ofCheck _ hvalue
  | _ => cases h

/-! ### The invariant and the frame -/

/-- **The storage and its frame.** In every reachable storage, whatever the transactions and
however callbacks re-enter the contract, the subscriptions are numbered from 1 to below the next
free number, each knows its number and has what it must have. The entries of a run whose writes
are kept lead from one committed storage to any later one, each adding one subscription under
the next free number or changing one status; so nothing but the status of a subscription ever
changes. And no proof is ever submitted for a subscription without a key path. -/
theorem frame (lib : Libraries) :
  (∀ s, Reachable lib s →
    (∀ id, (s.load id).isSome ↔ 1 ≤ id ∧ id ≤ s.nextId - 1) ∧
      ∀ id sub, s.load id = some sub →
        sub.id = id ∧ sub.keyPath ≠ [] ∧ sub.watchKey ≠ [] ∧ sub.callbackContract ≠ "") ∧
    (∀ txs txs' : List Tx, ∃ l, log lib (txs ++ txs') = log lib txs ++ l ∧
      Leads Storage.Changes (committed lib txs) l (committed lib (txs ++ txs'))) ∧
    (∀ (txs txs' : List Tx) (id : ℕ) (sub : Subscription),
      (committed lib txs).load id = some sub →
        ∃ status, (committed lib (txs ++ txs')).load id = some { sub with status := status }) ∧
    ∀ (txs : List Tx) (r : Record) (env : Env) (info : MessageInfo) (id : ℕ) (height : Height)
      (appHash proof key value : Binary) (before : Storage)
      (answer : Except Abort (Option (SubMsg Callback))),
      r ∈ log lib txs →
      r.event = .execute env ⟨info, .submitProof id height appHash proof key value⟩ before answer →
        answer ≠ .error (.error .emptyKeyPath) ∧
          ∀ sub, before.load id = some sub → ∃ store path, sub.keyPath = store :: path
  := by
  refine ⟨?_, leads_committed lib, ?_, ?_⟩
  · intro s hs
    have hsound := sound_of_reachable hs
    constructor
    · intro id
      have hpos := hsound.nextId_pos
      rw [hsound.isSome_load id]
      omega
    · intro id sub hload
      obtain ⟨hid, hpath, hkey, hcallback⟩ := hsound.wellFormed hload
      exact ⟨hid, hpath, hkey, hcallback⟩
  · intro txs txs' id sub hload
    apply (extends_committed lib txs txs').2 id sub hload
  · intro txs r env info id height appHash proof key value before answer hr hevent
    have hgenuine := Contract.genuine_of_mem_history hr
    have hfound := Contract.reachable_before_of_mem_history hr
    rw [hevent] at hgenuine hfound
    have hsound : before.Sound := sound_of_reachable hfound
    constructor
    · rintro rfl
      have hne : ((executeSubmitProof lib env id height appHash proof key value).runFrom before).1
          ≠ .error (.error .emptyKeyPath) :=
        submitProof_ne_emptyKeyPath hsound env id height appHash proof key value
      apply hne
      simp only [Contract.Genuine, contract, execute] at hgenuine
      generalize ((executeSubmitProof lib env id height appHash proof key value).runFrom before).1
        = a at hgenuine ⊢
      cases a with
      | error e => simpa [Except.map] using hgenuine
      | ok r => cases hgenuine
    · intro sub hload
      apply List.exists_cons_of_ne_nil (hsound.wellFormed hload).keyPath_ne

theorem frame_sample :
  ∃ status, (committed .sample ([sampleSubscription] ++ [sampleSubmission])).load 1
    = some { sampleSubscribed with status := status }
  := (frame .sample).2.2.1 [sampleSubscription] [sampleSubmission] 1 sampleSubscribed (by decide)

end Hub
