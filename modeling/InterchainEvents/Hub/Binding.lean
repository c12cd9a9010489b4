import InterchainEvents.Platform.Trace
import InterchainEvents.Hub.Trigger

/-!
# What a chained proof binds

When a single proof binds the value under a key to the root it is checked against, a chained
one binds it to the hash of the application: the root of the store is computed from the first
proof, whoever made it, but the second proof binds it to that hash under the name of the store.
So two accepted proofs for one hash, one store and one key prove the same value
(`chained_binding`).
-/

namespace Hub

open Shared Platform

variable {lib : Libraries}

/-! ### Chains of two proofs -/

/-- Against one root, proofs of one key that are accepted prove one value. -/
def Libraries.Binds (lib : Libraries) : Prop :=
  ∀ (spec : ProofSpec) (root key : Binary) (p q : lib.CommitmentProof) (v w : Binary),
    lib.verifyMembership p spec root key v = true →
    lib.verifyMembership q spec root key w = true → v = w

/-- Two commitment proofs, the first of which is an existence proof of the value under the key
and the second a proof that the root of the first is under the name of the store. -/
inductive Chained (lib : Libraries) (appHash proof : Binary) (store : String)
    (key value : Binary) : Prop
  | intro {iavl simple : Binary} {iavlCommitment simpleCommitment : lib.CommitmentProof}
      {iavlExistence : lib.ExistenceProof} {moduleRoot : Binary} :
      lib.decodeMerkleProof proof = .ok [iavl, simple] →
      lib.decodeCommitmentProof iavl = .ok iavlCommitment →
      lib.decodeCommitmentProof simple = .ok simpleCommitment →
      lib.exist iavlCommitment = some iavlExistence →
      lib.calculateExistenceRoot iavlExistence = .ok moduleRoot →
      lib.verifyMembership iavlCommitment .iavl moduleRoot key value = true →
      lib.verifyMembership simpleCommitment .tendermint appHash (Utf8.encode store.toList)
        moduleRoot = true →
      Chained lib appHash proof store key value

theorem decodeMerkleProof_ok_iff {proof p q : Binary} :
  decodeMerkleProof lib proof = .ok (p, q) ↔ lib.decodeMerkleProof proof = .ok [p, q]
  := by
  unfold decodeMerkleProof
  cases lib.decodeMerkleProof proof with
  | error e => simp [Except.mapError, bind, Except.bind]
  | ok proofs =>
      simp only [Except.mapError, bind, Except.bind, Except.ok.injEq]
      split
      · simp
      · rename_i hne
        constructor
        · intro h
          cases h
        · intro h
          exact absurd h (hne p q)

theorem chained_of_verify {appHash proof : Binary} {store : String} {path : List String}
    {key value : Binary}
    (h : verifyChainedMembership lib appHash proof (store :: path) key value = .ok ()) :
  Chained lib appHash proof store key value
  := by
  simp only [verifyChainedMembership, bind, Except.bind] at h
  split at h
  case h_1 => cases h
  case h_2 raw hraw =>
      obtain ⟨p, q⟩ := raw
      have hproofs := decodeMerkleProof_ok_iff.mp hraw
      cases hp : lib.decodeCommitmentProof p with
      | error e => simp [hp, Except.mapError] at h
      | ok c =>
          cases hq : lib.decodeCommitmentProof q with
          | error e => simp [hp, hq, Except.mapError] at h
          | ok d =>
              simp only [hp, hq, Except.mapError] at h
              cases he : lib.exist c with
              | none => simp [he] at h
              | some e =>
                  cases hr : lib.calculateExistenceRoot e with
                  | error err => simp [he, hr] at h
                  | ok root =>
                      simp only [he, hr] at h
                      split_ifs at h with h₁ h₂
                      rw [Bool.not_eq_false] at h₁ h₂
                      apply Chained.intro hproofs hp hq he hr h₁ h₂

/-- A chain of two proofs is accepted. -/
theorem Chained.verify {appHash proof : Binary} {store : String} {key value : Binary}
    (h : Chained lib appHash proof store key value) (path : List String) :
  verifyChainedMembership lib appHash proof (store :: path) key value = .ok ()
  := by
  obtain ⟨hproofs, hp, hq, he, hr, hvalue, hroot⟩ := h
  simp [verifyChainedMembership, decodeMerkleProof_ok_iff.mpr hproofs, hp, hq, he, hr, hvalue,
    hroot, Except.mapError, bind, Except.bind]

/-- Chains of proofs for one hash, one store and one key prove one value: the second proofs
make the roots of the first ones the same. -/
theorem Chained.value_unique (hbinds : lib.Binds) {appHash proof proof' : Binary} {store : String}
    {key value value' : Binary} (h : Chained lib appHash proof store key value)
    (h' : Chained lib appHash proof' store key value') :
  value = value'
  := by
  obtain ⟨-, -, -, -, -, hvalue, hroot⟩ := h
  obtain ⟨-, -, -, -, -, hvalue', hroot'⟩ := h'
  obtain rfl := hbinds _ _ _ _ _ _ _ hroot hroot'
  apply hbinds _ _ _ _ _ _ _ hvalue hvalue'

/-! ### Runs -/

/-- An entry that accepted a proof for a subscription, with a hash of the application. -/
def AcceptedWith (appHash : Binary) (id : ℕ) (sub : Subscription) (r : Record) : Prop :=
  ∃ env info height proof key value before answer,
    r.event = .execute env ⟨info, .submitProof id height appHash proof key value⟩ before
      (.ok answer) ∧ before.load id = some sub

/-- The proof of an accepted entry proves a value that satisfies the condition. -/
theorem AcceptedWith.chained {txs : List Tx} {appHash : Binary} {id : ℕ} {sub : Subscription}
    {r : Record} (h : AcceptedWith appHash id sub r) (hr : r ∈ log lib txs) :
  ∃ store path proof value, sub.keyPath = store :: path ∧
    Chained lib appHash proof store sub.watchKey value ∧ Satisfies lib sub.condition value
  := by
  obtain ⟨env, info, height, proof, key, value, before, answer, hevent, hload⟩ := h
  have hgenuine := Contract.genuine_of_mem_history hr
  rw [hevent] at hgenuine
  obtain ⟨s', hexec⟩ : ∃ s', (contract lib).execute env
      ⟨info, .submitProof id height appHash proof key value⟩ before = (.ok answer, s') :=
    ⟨_, Prod.ext hgenuine rfl⟩
  cases contract_execute_ok hexec with
  | created hmsg => cases hmsg
  | triggered hmsg hload' htriggers =>
      cases hmsg
      obtain rfl := Storage.load_unique hload hload'
      have hproven := htriggers.proven
      cases hpath : sub.keyPath with
      | nil =>
          rw [hpath] at hproven
          cases hproven
      | cons store path =>
          rw [hpath, htriggers.key_eq] at hproven
          exact ⟨store, path, proof, value, rfl, chained_of_verify hproven,
            checkValue_ok_iff.mp htriggers.met⟩

/-- **Two levels bind.** If single proofs bind, then: two accepted proofs for one hash of the
application, one store and one key prove the same value, whatever the proofs and the rests of
the key paths; in no run are proofs with one hash accepted for two subscriptions to the same
store and key whose conditions no value satisfies both; and an accepted proof consists of two
commitment proofs, the first an existence proof whose own root is what the second proves. -/
theorem chained_binding (lib : Libraries) (hbinds : lib.Binds) :
  (∀ (appHash proof proof' : Binary) (store : String) (path path' : List String)
      (key value value' : Binary),
    verifyChainedMembership lib appHash proof (store :: path) key value = .ok () →
    verifyChainedMembership lib appHash proof' (store :: path') key value' = .ok () →
      value = value') ∧
    (∀ (txs : List Tx) (appHash : Binary) (id id' : ℕ) (sub sub' : Subscription) (r r' : Record),
      r ∈ log lib txs → r' ∈ log lib txs →
      AcceptedWith appHash id sub r → AcceptedWith appHash id' sub' r' →
      sub.keyPath.head? = sub'.keyPath.head? → sub.watchKey = sub'.watchKey →
        ∃ value, Satisfies lib sub.condition value ∧ Satisfies lib sub'.condition value) ∧
    ∀ (appHash proof : Binary) (keyPath : List String) (key value : Binary),
      verifyChainedMembership lib appHash proof keyPath key value = .ok () →
        ∃ store path iavl simple iavlCommitment simpleCommitment iavlExistence moduleRoot,
          keyPath = store :: path ∧
          lib.decodeMerkleProof proof = .ok [iavl, simple] ∧
          lib.decodeCommitmentProof iavl = .ok iavlCommitment ∧
          lib.decodeCommitmentProof simple = .ok simpleCommitment ∧
          lib.exist iavlCommitment = some iavlExistence ∧
          lib.calculateExistenceRoot iavlExistence = .ok moduleRoot ∧
          lib.verifyMembership iavlCommitment .iavl moduleRoot key value = true ∧
          lib.verifyMembership simpleCommitment .tendermint appHash (Utf8.encode store.toList)
            moduleRoot = true
  := by
  refine ⟨?_, ?_, ?_⟩
  · intro appHash proof proof' store path path' key value value' h h'
    apply (chained_of_verify h).value_unique hbinds (chained_of_verify h')
  · intro txs appHash id id' sub sub' r r' hr hr' h h' hstore hkey
    obtain ⟨store, path, proof, value, hpath, hchained, hvalue⟩ := h.chained hr
    obtain ⟨store', path', proof', value', hpath', hchained', hvalue'⟩ := h'.chained hr'
    rw [hpath, hpath', List.head?_cons, List.head?_cons, Option.some.injEq] at hstore
    rw [hstore, hkey] at hchained
    obtain rfl := hchained.value_unique hbinds hchained'
    exact ⟨value, hvalue, hvalue'⟩
  · intro appHash proof keyPath key value h
    cases keyPath with
    | nil => cases h
    | cons store path =>
        obtain ⟨hproofs, hp, hq, he, hr, hvalue, hroot⟩ := chained_of_verify h
        exact ⟨store, path, _, _, _, _, _, _, rfl, hproofs, hp, hq, he, hr, hvalue, hroot⟩

theorem sample_binds :
  Libraries.sample.Binds
  := by
  intro spec root key p q v w hv hw
  cases p <;> cases q <;> cases spec <;> simp_all [Libraries.sample]

theorem chained_binding_sample :
  ∃ iavlCommitment simpleCommitment moduleRoot,
    Libraries.sample.verifyMembership iavlCommitment .iavl moduleRoot [1] [0x37] = true ∧
    Libraries.sample.verifyMembership simpleCommitment .tendermint sampleAppHash
      (Utf8.encode "wasm".toList) moduleRoot = true
  := by
  obtain ⟨store, path, _, _, c, d, _, root, hpath, -, -, -, -, -, hvalue, hroot⟩ :=
    (chained_binding .sample sample_binds).2.2 sampleAppHash sampleProof ["wasm"] [1] [0x37]
      sample_triggers.proven
  obtain ⟨rfl, -⟩ := List.cons.inj hpath
  exact ⟨c, d, root, hvalue, hroot⟩

end Hub
