import InterchainEvents.Hub.Invariant

/-!
# What a poll of the watcher sees

The watcher asks the contract for one page of subscriptions and keeps the active ones. A page
has at most 100 entries and pages begin with the oldest, so a poll sees exactly the active
subscriptions with a number up to 100 (`mem_fetchActiveSubscriptions_iff`): it misses one as
soon as a subscription with a greater number is active (`covers_iff`).
-/

namespace Watcher

open Shared Hub Platform

/-- A status as it travels: a word, or the record of a failure. -/
inductive WireStatus where
  | word (s : String)
  | failed (error : String)
  deriving DecidableEq

/-- The status that the watcher receives. -/
def wireStatus : SubscriptionStatus → WireStatus
  | .active => .word "active"
  | .triggered => .word "triggered"
  | .expired => .word "expired"
  | .failed error => .failed error

/-- The subscriptions a poll goes through. -/
def fetchActiveSubscriptions (s : Storage) : List Subscription :=
  (queryListSubscriptions s none (some 100)).filter fun sub =>
    wireStatus sub.status = .word "active"

/-- A poll goes through all active subscriptions, and once through each. -/
def Covers (s : Storage) : Prop :=
  (fetchActiveSubscriptions s).Nodup ∧
    ∀ sub, sub ∈ fetchActiveSubscriptions s ↔ ∃ id, s.load id = some sub ∧ sub.status = .active

@[simp]
theorem wireStatus_eq_active_iff {status : SubscriptionStatus} :
  wireStatus status = .word "active" ↔ status = .active
  := by
  cases status <;> simp [wireStatus]

theorem queryListSubscriptions_100 (s : Storage) :
  queryListSubscriptions s none (some 100) = (s.subscriptions.toList.take 100).map Prod.snd
  := by
  simp [queryListSubscriptions, Storage.range]

/-- A poll sees the active subscriptions with a number up to 100. -/
theorem mem_fetchActiveSubscriptions_iff {s : Storage} (hs : s.Sound) {sub : Subscription} :
  sub ∈ fetchActiveSubscriptions s
    ↔ ∃ id, id ≤ 100 ∧ s.load id = some sub ∧ sub.status = .active
  := by
  simp only [fetchActiveSubscriptions, queryListSubscriptions_100, List.mem_filter, List.mem_map,
    decide_eq_true_eq, wireStatus_eq_active_iff]
  constructor
  · rintro ⟨⟨⟨id, sub'⟩, he, rfl⟩, hactive⟩
    obtain ⟨hload, hid⟩ := (Storage.mem_take_toList_iff hs).mp he
    exact ⟨id, hid, hload, hactive⟩
  · rintro ⟨id, hid, hload, hactive⟩
    exact ⟨⟨(id, sub), (Storage.mem_take_toList_iff hs).mpr ⟨hload, hid⟩, rfl⟩, hactive⟩

theorem nodup_fetchActiveSubscriptions {s : Storage} (hs : s.Sound) :
  (fetchActiveSubscriptions s).Nodup
  := by
  have hsub : (fetchActiveSubscriptions s).Sublist (s.subscriptions.toList.map Prod.snd) := by
    rw [fetchActiveSubscriptions, queryListSubscriptions_100]
    apply List.filter_sublist.trans
    apply (List.take_sublist 100 _).map
  apply List.Pairwise.sublist hsub
  -- the entries differ in their numbers, and a subscription has its number
  apply List.pairwise_map.mpr
  apply (Storage.pairwise_toList s).imp_of_mem
  rintro ⟨id, sub⟩ ⟨id', sub'⟩ he he' hlt heq
  have hid := (hs.wellFormed (Storage.mem_toList_iff.mp he)).id_eq
  have hid' := (hs.wellFormed (Storage.mem_toList_iff.mp he')).id_eq
  dsimp only at heq hlt
  rw [heq] at hid
  omega

/-- An active subscription with a number above 100 is missed. -/
theorem not_covers_of_active {s : Storage} (hs : s.Sound) {id : ℕ} {sub : Subscription}
    (hload : s.load id = some sub) (hactive : sub.status = .active) (hid : 100 < id) :
  ¬ Covers s
  := by
  rintro ⟨-, hmem⟩
  obtain ⟨id', hid', hload', -⟩ :=
    (mem_fetchActiveSubscriptions_iff hs).mp ((hmem sub).mpr ⟨id, hload, hactive⟩)
  have h := (hs.wellFormed hload).id_eq
  have h' := (hs.wellFormed hload').id_eq
  omega

/-- **What a poll misses.** In any storage of any run, a poll goes through all active
subscriptions, each once, if and only if none with a number above 100 is active. -/
theorem covers_iff {lib : Libraries} {s : Storage} (hs : Reachable lib s) :
  Covers s ↔ ∀ id sub, s.load id = some sub → sub.status = .active → id ≤ 100
  := by
  have hsound := sound_of_reachable hs
  constructor
  · intro hcovers id sub hload hactive
    apply not_lt.mp
    intro hid
    apply not_covers_of_active hsound hload hactive hid hcovers
  · intro h
    use nodup_fetchActiveSubscriptions hsound
    intro sub
    rw [mem_fetchActiveSubscriptions_iff hsound]
    constructor
    · rintro ⟨id, -, hload, hactive⟩
      exact ⟨id, hload, hactive⟩
    · rintro ⟨id, hload, hactive⟩
      exact ⟨id, h id sub hload hactive, hload, hactive⟩

/-! ### A hundred and one subscriptions -/

/-- One more subscription. -/
theorem committed_append_sampleSubscription {lib : Libraries} {txs : List Tx}
    (hid : (committed lib txs).nextId + 1 < 2 ^ 64) :
  ∃ sub, sub.status = .active ∧
    committed lib (txs ++ [sampleSubscription]) = (committed lib txs).create sub
  := by
  have hout := executeSubscribe_outcome ⟨10⟩ (committed lib txs) ⟨"alice"⟩ "07-tendermint-42"
    ["wasm"] [1] (.equals [0x37]) "callback" [] none
  have hexec : ∃ sub, sub.status = .active ∧ (contract lib).execute ⟨10⟩ sampleSubscribe
      (committed lib txs) = (.ok none, (committed lib txs).create sub) := by
    simp only [contract, execute, sampleSubscribe]
    generalize (executeSubscribe ⟨10⟩ ⟨"alice"⟩ "07-tendermint-42" ["wasm"] [1] (.equals [0x37])
      "callback" [] none).runFrom (committed lib txs) = o at hout ⊢
    cases hout with
    | created => exact ⟨_, rfl, rfl⟩
    | emptyKeyPath h | emptyWatchKey _ h | emptyCallbackContract _ _ h => simp at h
    | idOverflow => omega
    | expiryOverflow _ _ _ _ h => cases h
  obtain ⟨sub, hsub, hexec⟩ := hexec
  obtain ⟨hanswer, hstate⟩ := Contract.send_of_no_callback (fun _ => .succeed) hexec
  refine ⟨sub, hsub, ?_⟩
  rw [committed_append]
  simp only [Contract.history]
  rw [sampleSubscription, Contract.transact_message_of_ok hanswer, hstate]

/-- After as many transactions, all of that many subscriptions are active. -/
theorem committed_replicate_sampleSubscription (lib : Libraries) (n : ℕ) (hn : n + 2 < 2 ^ 64) :
  (committed lib (List.replicate n sampleSubscription)).nextId = n + 1 ∧
    ∀ id sub, (committed lib (List.replicate n sampleSubscription)).load id = some sub →
      sub.status = .active
  := by
  induction n with
  | zero => exact ⟨rfl, by intro id sub h; simp [committed, Contract.history] at h⟩
  | succ n ih =>
      obtain ⟨hnext, hactive⟩ := ih (by omega)
      rw [List.replicate_succ']
      obtain ⟨sub, hsub, hcreate⟩ := committed_append_sampleSubscription
        (hnext ▸ (by omega : n + 1 + 1 < 2 ^ 64))
      rw [hcreate]
      constructor
      · rw [Storage.nextId_create, hnext]
      · intro id sub' hload
        rw [Storage.load_create] at hload
        split_ifs at hload
        · obtain rfl := Option.some.inj hload
          apply hsub
        · apply hactive id sub' hload

/-- After 101 transactions, the subscription 101 is active. -/
theorem exists_active_101 :
  ∃ sub, (committed .sample (List.replicate 101 sampleSubscription)).load 101 = some sub ∧
    sub.status = .active
  := by
  have hsound := sound_of_reachable
    (reachable_committed .sample (List.replicate 101 sampleSubscription))
  obtain ⟨hnext, hactive⟩ := committed_replicate_sampleSubscription .sample 101 (by decide)
  have hsome := (hsound.isSome_load 101).mpr (by omega)
  obtain ⟨sub, hload⟩ := Option.isSome_iff_exists.mp hsome
  exact ⟨sub, hload, hactive 101 sub hload⟩

theorem not_covers_101 :
  ¬ Covers (committed .sample (List.replicate 101 sampleSubscription))
  := by
  have hsound := sound_of_reachable
    (reachable_committed .sample (List.replicate 101 sampleSubscription))
  obtain ⟨sub, hload, hactive⟩ := exists_active_101
  apply not_covers_of_active hsound hload hactive (by decide)

/-- Two subscriptions and a proof for the first, which leave one triggered and one active. -/
def mixedTxs : List Tx :=
  [sampleSubscription, sampleSubmission, sampleSubscription]

/-- The poll goes through the active subscription of the mixed run, and misses one of the 101. -/
theorem covers_iff_mixedTxs :
  ((committed .sample mixedTxs).load 1 = some { sampleSubscribed with status := .triggered } ∧
      (committed .sample mixedTxs).load 2 = some { sampleSubscribed with id := 2 } ∧
      Covers (committed .sample mixedTxs)) ∧
    ¬ Covers (committed .sample (List.replicate 101 sampleSubscription))
  := by
  constructor
  · have hnext : (committed .sample mixedTxs).nextId = 3 := by decide
    refine ⟨by decide, by decide, ?_⟩
    apply (covers_iff (reachable_committed .sample mixedTxs)).mpr
    intro id sub hload _
    have hid := (sound_of_reachable (reachable_committed .sample mixedTxs)).lt_nextId hload
    omega
  · obtain ⟨sub, hload, hactive⟩ := exists_active_101
    intro hcovers
    have hid := (covers_iff (reachable_committed .sample _)).mp hcovers 101 sub hload hactive
    omega

end Watcher
