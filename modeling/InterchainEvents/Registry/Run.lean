import InterchainEvents.Registry.Contract

/-!
# Runs of the attestation registry

What is stored under an identifier is what was attested last under it, among the attestations that
were accepted and whose writes were kept (`load_committed`).
-/

namespace Registry

open Shared Platform

/-! ### Runs -/

/-- A transaction that may call the contract. -/
abbrev Tx : Type := Platform.Tx Storage Env Call Empty ContractError

/-- An entry into the contract, and whether its writes were kept. -/
abbrev Record : Type := Platform.Record Storage Env Call Empty ContractError

/-- The storage committed by a sequence of transactions. -/
def committed (txs : List Tx) : Storage :=
  (contract.history txs .initial).1

/-- The entries made by a sequence of transactions, in order. -/
def log (txs : List Tx) : List Record :=
  (contract.history txs .initial).2

theorem committed_append (txs txs' : List Tx) :
  committed (txs ++ txs') = (contract.history txs' (committed txs)).1
  := by
  rw [committed, contract.history_append, committed]

theorem log_append (txs txs' : List Tx) :
  log (txs ++ txs') = log txs ++ (contract.history txs' (committed txs)).2
  := by
  rw [log, contract.history_append, log, committed]

/-! ### The last attestation -/

/-- What an entry attested, and under which identifier, if it was accepted and kept. -/
def attested (r : Record) : Option (String × Attestation) :=
  match r with
  | ⟨.execute env ⟨info, .attest id status⟩ _ (.ok _), true⟩ =>
      some (id, ⟨status, info.sender, env.height⟩)
  | _ => none

/-- The last attestation under an identifier in a log. -/
def lastAttest (h : List Record) (id : String) : Option Attestation :=
  (((h.filterMap attested).filter fun e => e.1 = id).getLast?).map Prod.snd

/-- An entry whose writes were discarded attested nothing. -/
theorem attested_of_discarded {r : Record} (h : r.kept = false) :
  attested r = none
  := by
  unfold attested
  split
  · contradiction
  · rfl

theorem lastAttest_append_of_forall {h l : List Record} {id : String}
    (hl : ∀ r ∈ l, ∀ a, attested r ≠ some (id, a)) :
  lastAttest (h ++ l) id = lastAttest h id
  := by
  have hnone : (l.filterMap attested).filter (fun e => e.1 = id) = [] := by
    apply List.filter_eq_nil_iff.mpr
    rintro ⟨id', a⟩ he
    obtain ⟨r, hr, hattested⟩ := List.mem_filterMap.mp he
    rw [decide_eq_true_eq]
    rintro rfl
    apply hl r hr a hattested
  rw [lastAttest, List.filterMap_append, List.filter_append, hnone, List.append_nil, lastAttest]

theorem lastAttest_append_of_attested {h : List Record} {r : Record} {id : String}
    {a : Attestation} (hr : attested r = some (id, a)) :
  lastAttest (h ++ [r]) id = some a
  := by
  have hlast : (([r].filterMap attested).filter fun e => e.1 = id) = [(id, a)] := by
    simp [hr]
  rw [lastAttest, List.filterMap_append, List.filter_append, hlast, List.getLast?_concat]
  rfl

/-- The last attestation comes from the later entries, if there is one. -/
theorem lastAttest_append (h l : List Record) (id : String) :
  lastAttest (h ++ l) id = (lastAttest l id).or (lastAttest h id)
  := by
  rw [lastAttest, List.filterMap_append, List.filter_append, List.getLast?_append, Option.map_or]
  rfl

theorem mem_attested_of_lastAttest {h : List Record} {id : String} {a : Attestation}
    (ha : lastAttest h id = some a) :
  (id, a) ∈ h.filterMap attested
  := by
  obtain ⟨⟨id', a'⟩, hlast, rfl⟩ := Option.map_eq_some_iff.mp ha
  obtain ⟨hmem, hid⟩ := List.mem_filter.mp (List.mem_of_getLast? hlast)
  rw [decide_eq_true_eq] at hid
  rw [← hid]
  apply hmem

theorem lastAttest_of_mem_attested {h : List Record} {id : String} {a : Attestation}
    (ha : (id, a) ∈ h.filterMap attested) :
  ∃ a', lastAttest h id = some a'
  := by
  have hmem : (id, a) ∈ (h.filterMap attested).filter (fun e => e.1 = id) :=
    List.mem_filter.mpr ⟨ha, by simp⟩
  rw [lastAttest, List.getLast?_eq_some_getLast (List.ne_nil_of_mem hmem)]
  exact ⟨_, rfl⟩

/-- Along a run, what is stored is what was attested last. -/
theorem lastAttestRule :
  contract.HistoryRule (fun h s => ∀ id, s.load id = lastAttest h id)
  where
  discard := by
    intro h l s s' hs _ id
    rw [hs, lastAttest_append_of_forall]
    intro r hr a
    obtain ⟨r', -, rfl⟩ := List.mem_map.mp hr
    have hnone : attested r'.discard = none := attested_of_discarded rfl
    simp [hnone]
  refused := by
    intro h s env message e s' hs _ id
    rw [hs, lastAttest_append_of_forall]
    intro r hr a
    obtain rfl := List.mem_singleton.mp hr
    simp [attested_of_discarded]
  executed := by
    intro h s env call r s' hs hexec id
    obtain ⟨id', status, hmsg, -, -, rfl, rfl⟩ := contract_execute_ok hexec
    obtain ⟨info, msg⟩ := call
    dsimp only at hmsg
    subst hmsg
    rw [Storage.load_save]
    split_ifs with heq
    · subst heq
      rw [lastAttest_append_of_attested]
      rfl
    · rw [hs, lastAttest_append_of_forall]
      intro r hr a hattested
      obtain rfl := List.mem_singleton.mp hr
      apply heq (Prod.mk.inj (Option.some.inj hattested)).1
  replied := by
    intro h s env message sub
    exact sub.payload.elim
  replyRefused := by
    intro h s env message sub
    exact sub.payload.elim

/-- **What is stored was attested last.** -/
theorem load_committed (txs : List Tx) (id : String) :
  (committed txs).load id = lastAttest (log txs) id
  := by
  have h := lastAttestRule.history txs (h := []) (s := .initial) (fun _ => Storage.load_initial _)
  apply h id

/-- Transactions that attest nothing under an identifier leave what is stored under it. -/
theorem load_committed_append {txs txs' : List Tx} {id : String}
    (h : ∀ r ∈ (contract.history txs' (committed txs)).2, ∀ a, attested r ≠ some (id, a)) :
  (committed (txs ++ txs')).load id = (committed txs).load id
  := by
  rw [load_committed, load_committed, log_append, lastAttest_append_of_forall h]

/-- A transaction with an attestation of a text under an identifier attests it. -/
theorem mem_attested_of_message {txs : List Tx} {env : Env} {info : MessageInfo}
    {id status : String} {callback : SubMsg Empty → Script Storage Call Empty ContractError}
    {text : ContractError → String}
    (h : .message env ⟨info, .attest id status⟩ callback text ∈ txs) (hid : id ≠ "")
    (hstatus : status ≠ "") (s : Storage) :
  (id, ⟨status, info.sender, env.height⟩) ∈ (contract.history txs s).2.filterMap attested
  := by
  induction txs generalizing s with
  | nil => cases h
  | cons tx txs ih =>
      rw [Contract.history, List.filterMap_append, List.mem_append]
      rcases List.mem_cons.mp h with rfl | h
      · left
        have hexec := contract_execute_attest env info hid hstatus s
        apply List.mem_filterMap.mpr
        refine ⟨⟨.execute env ⟨info, .attest id status⟩ s (.ok none), true⟩, ?_, rfl⟩
        simp [Contract.transact, Tx.message, Contract.run, Contract.deliver, hexec, Outcome.commit]
      · right
        apply ih h

/-- A transaction with an attestation that is refused changes nothing. -/
theorem committed_append_empty {id status : String} (h : id = "" ∨ status = "") (txs : List Tx)
    (env : Env) (info : MessageInfo)
    (callback : SubMsg Empty → Script Storage Call Empty ContractError)
    (text : ContractError → String) :
  committed (txs ++ [.message env ⟨info, .attest id status⟩ callback text]) = committed txs
  := by
  obtain ⟨e, he⟩ := contract_execute_empty h env info (committed txs)
  rw [committed_append]
  apply Contract.transact_message_of_error (e := e)
  simp [Contract.send, Contract.deliver, he]

end Registry
