import InterchainEvents.Hub.Lifecycle

/-!
# The watches that are listed as active

A watcher asks for the active watches of its client. It should be told of those subscriptions that
a proof submitted at the present height could still trigger (`ListsLive`). The answer goes by the
status that is stored, in which expiry is never recorded, so it is right exactly as long as no
active subscription of the client has expired (`activeWatches_iff`).
-/

namespace Hub

open Shared Platform

variable {lib : Libraries}

/-! ### Live subscriptions -/

/-- A subscription is active and, if it expires, its last block is not past. -/
def Live (h : ℕ) (sub : Subscription) : Prop :=
  sub.status = .active ∧ ∀ last, sub.expiresAt = some last → h ≤ last

/-- What a watcher is told of a subscription. -/
def watchOf (id : ℕ) (sub : Subscription) : WatchInfo :=
  ⟨id, sub.clientId, sub.keyPath, sub.watchKey, sub.condition⟩

/-- The answer to a watcher consists of the live subscriptions of its client, each once and in the
order of their numbers, with what is stored of them. -/
structure ListsLive (s : Storage) (clientId : String) (h : ℕ) : Prop where
  ascending : ((queryActiveWatchesByClient s clientId).map WatchInfo.subscriptionId).Pairwise
    (· < ·)
  mem_iff : ∀ watch, watch ∈ queryActiveWatchesByClient s clientId
    ↔ ∃ id sub, s.load id = some sub ∧ sub.clientId = clientId ∧ Live h sub ∧
        watch = watchOf id sub

/-- Proofs for a stored subscription that are submitted at a height are refused because it is not
active or has expired, whatever the proofs. -/
def RefusedAt (lib : Libraries) (s : Storage) (id h : ℕ) : Prop :=
  ∀ (info : MessageInfo) (height : Height) (appHash proof key value : Binary),
    ((contract lib).execute ⟨h⟩ ⟨info, .submitProof id height appHash proof key value⟩ s).1
        = .error (.error (.subscriptionNotActive id)) ∨
      ((contract lib).execute ⟨h⟩ ⟨info, .submitProof id height appHash proof key value⟩ s).1
        = .error (.error (.subscriptionExpired id))

theorem live_iff {h : ℕ} {sub : Subscription} :
  Live h sub ↔ sub.status = .active ∧ hasExpired sub h = false
  := by
  rw [Live, hasExpired_eq_false_iff]

/-- A stored subscription is live exactly if proofs for it are not refused on its account. -/
theorem live_iff_not_refusedAt {s : Storage} {id : ℕ} {sub : Subscription}
    (hload : s.load id = some sub) (h : ℕ) :
  Live h sub ↔ ¬ RefusedAt lib s id h
  := by
  rw [live_iff]
  constructor
  · -- a proof for another key is refused for that
    rintro ⟨hactive, hunexpired⟩ hrefused
    have hne : (0 :: sub.watchKey : Binary) ≠ sub.watchKey := List.cons_ne_self _ _
    have hanswer := hrefused ⟨""⟩ ⟨0, 0⟩ [] [] (0 :: sub.watchKey) []
    simp only [contract, execute] at hanswer
    rw [executeSubmitProof_of_load lib ⟨h⟩ hload, if_neg (not_not.mpr hactive),
      if_neg (by simp [hunexpired]), if_pos hne] at hanswer
    simp [Except.map] at hanswer
  · intro hrefused
    by_contra hnot
    apply hrefused
    intro info height appHash proof key value
    by_cases hactive : sub.status = .active
    · right
      have hexpired : hasExpired sub h = true := by
        rw [← Bool.not_eq_false]
        intro hunexpired
        exact hnot ⟨hactive, hunexpired⟩
      rw [contract_execute_expired rfl hload hactive hexpired]
    · left
      rw [contract_execute_notActive rfl hload hactive]

/-! ### The answer -/

theorem mem_queryActiveWatches_iff {s : Storage} (hs : s.Sound) {clientId : String}
    {watch : WatchInfo} :
  watch ∈ queryActiveWatchesByClient s clientId
    ↔ ∃ id sub, s.load id = some sub ∧ sub.clientId = clientId ∧ sub.status = .active ∧
        watch = watchOf id sub
  := by
  have hrange : s.range none = s.subscriptions.toList := by simp [Storage.range]
  simp only [queryActiveWatchesByClient, hrange, List.mem_filterMap, Prod.exists,
    Option.ite_none_right_eq_some, Option.some.injEq]
  constructor
  · rintro ⟨id, sub, hmem, ⟨hactive, hclient⟩, rfl⟩
    have hload := Storage.mem_toList_iff.mp hmem
    refine ⟨id, sub, hload, hclient, hactive, ?_⟩
    rw [(hs.wellFormed hload).id_eq]
    rfl
  · rintro ⟨id, sub, hload, hclient, hactive, rfl⟩
    refine ⟨id, sub, Storage.mem_toList_iff.mpr hload, ⟨hactive, hclient⟩, ?_⟩
    rw [(hs.wellFormed hload).id_eq]
    rfl

/-- The numbers in the answer ascend. -/
theorem ascending_queryActiveWatches {s : Storage} (hs : s.Sound) (clientId : String) :
  ((queryActiveWatchesByClient s clientId).map WatchInfo.subscriptionId).Pairwise (· < ·)
  := by
  have hrange : s.range none = s.subscriptions.toList := by simp [Storage.range]
  rw [queryActiveWatchesByClient, hrange, List.pairwise_map, List.pairwise_filterMap]
  apply (Storage.pairwise_toList s).imp_of_mem
  rintro ⟨id, sub⟩ ⟨id', sub'⟩ hmem hmem' hlt watch hwatch watch' hwatch'
  have hid := (hs.wellFormed (Storage.mem_toList_iff.mp hmem)).id_eq
  have hid' := (hs.wellFormed (Storage.mem_toList_iff.mp hmem')).id_eq
  obtain ⟨-, hwatch⟩ := Option.ite_none_right_eq_some.mp hwatch
  obtain ⟨-, hwatch'⟩ := Option.ite_none_right_eq_some.mp hwatch'
  obtain rfl := Option.some.inj hwatch
  obtain rfl := Option.some.inj hwatch'
  rw [hid, hid']
  apply hlt

/-- **Active watches are the live ones** exactly as long as no active subscription of the client has
expired. This holds in every storage that a run commits, for every client and height. The live
subscriptions are those for which proofs are not refused on their account. -/
theorem activeWatches_iff (lib : Libraries) (txs : List Tx) (clientId : String) (h : ℕ) :
  (ListsLive (committed lib txs) clientId h
    ↔ ∀ id sub, (committed lib txs).load id = some sub → sub.clientId = clientId →
        sub.status = .active → hasExpired sub h = false) ∧
    ∀ id sub, (committed lib txs).load id = some sub →
      (Live h sub ↔ ¬ RefusedAt lib (committed lib txs) id h)
  := by
  have hs := sound_of_reachable (reachable_committed lib txs)
  refine ⟨⟨?_, ?_⟩, fun id sub hload => live_iff_not_refusedAt hload h⟩
  · intro hlists id sub hload hclient hactive
    have hmem := (mem_queryActiveWatches_iff hs).mpr ⟨id, sub, hload, hclient, hactive, rfl⟩
    obtain ⟨id', sub', hload', -, hlive, heq⟩ := (hlists.mem_iff _).mp hmem
    obtain rfl : id = id' := congrArg WatchInfo.subscriptionId heq
    obtain rfl := Storage.load_unique hload hload'
    apply (live_iff.mp hlive).2
  · intro hunexpired
    use ascending_queryActiveWatches hs clientId
    intro watch
    rw [mem_queryActiveWatches_iff hs]
    constructor
    · rintro ⟨id, sub, hload, hclient, hactive, rfl⟩
      refine ⟨id, sub, hload, hclient, live_iff.mpr ⟨hactive, ?_⟩, rfl⟩
      apply hunexpired id sub hload hclient hactive
    · rintro ⟨id, sub, hload, hclient, hlive, rfl⟩
      exact ⟨id, sub, hload, hclient, hlive.1, rfl⟩

theorem activeWatches_iff_sample :
  ListsLive (committed .sample [shortSubscription]) "07-tendermint-42" 15
  := by
  apply (activeWatches_iff .sample [shortSubscription] "07-tendermint-42" 15).1.mpr
  intro id sub hload _ _
  have hstate : committed .sample [shortSubscription]
      = Storage.initial.create shortSubscribed := rfl
  rw [hstate, Storage.load_create, Storage.load_initial] at hload
  obtain ⟨-, hsub⟩ := Option.ite_none_right_eq_some.mp hload
  obtain rfl := Option.some.inj hsub
  rfl

/-- A subscription for five blocks from block 10 on is still listed at block 16, when a proof for it
is refused. -/
theorem shortSubscribed_still_listed :
  (committed .sample [shortSubscription]).load 1 = some shortSubscribed ∧
    RefusedAt .sample (committed .sample [shortSubscription]) 1 16 ∧
    watchOf 1 shortSubscribed
      ∈ queryActiveWatchesByClient (committed .sample [shortSubscription]) "07-tendermint-42" ∧
    ¬ ListsLive (committed .sample [shortSubscription]) "07-tendermint-42" 16
  := by
  have hload : (committed .sample [shortSubscription]).load 1 = some shortSubscribed := by decide
  have hmem : watchOf 1 shortSubscribed
      ∈ queryActiveWatchesByClient (committed .sample [shortSubscription]) "07-tendermint-42" := by
    apply (mem_queryActiveWatches_iff (sound_of_reachable (reachable_committed _ _))).mpr
    exact ⟨1, shortSubscribed, hload, rfl, rfl, rfl⟩
  have hdead : ¬ Live 16 shortSubscribed := by simp [live_iff, hasExpired, shortSubscribed]
  refine ⟨hload, ?_, hmem, ?_⟩
  · by_contra hrefused
    apply hdead ((live_iff_not_refusedAt hload 16).mpr hrefused)
  · intro hlists
    obtain ⟨id, sub, hload', -, hlive, heq⟩ := (hlists.mem_iff _).mp hmem
    obtain rfl : 1 = id := congrArg WatchInfo.subscriptionId heq
    obtain rfl := Storage.load_unique hload hload'
    apply hdead hlive

end Hub
