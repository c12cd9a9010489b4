import InterchainEvents.Hub.Steps

/-!
# Runs of the hub contract, and what holds of every storage in them

`Storage.Sound` is the invariant of the storage: the subscriptions are numbered without gaps
from 1 to below the next free number, each knows its number, and what a subscription must not
lack it does not lack (`sound_of_reachable`). A subscription that is not active is settled: no
call that succeeds changes it (`Succeeds.load_of_settled`).
-/

namespace Hub

open Shared Platform

variable {lib : Libraries}

/-! ### Runs -/

/-- A transaction that may call the contract. -/
abbrev Tx : Type := Platform.Tx Storage Env Call Callback Abort

/-- What other contracts do that may call this one. -/
abbrev Script : Type := Platform.Script Storage Call Callback Abort

/-- An entry into the contract. -/
abbrev Event : Type := Platform.Event Storage Env Call Callback Abort

/-- An entry into the contract, and whether its writes were kept. -/
abbrev Record : Type := Platform.Record Storage Env Call Callback Abort

/-- A storage that occurs in some run, between transactions or within one. -/
def Reachable (lib : Libraries) (s : Storage) : Prop :=
  (contract lib).Reachable .initial s

/-- The storage committed by a sequence of transactions. -/
def committed (lib : Libraries) (txs : List Tx) : Storage :=
  ((contract lib).history txs .initial).1

/-- The entries made by a sequence of transactions, in order. -/
def log (lib : Libraries) (txs : List Tx) : List Record :=
  ((contract lib).history txs .initial).2

theorem reachable_committed (lib : Libraries) (txs : List Tx) :
  Reachable lib (committed lib txs)
  := (contract lib).reachable_history txs .initial

theorem committed_append (txs txs' : List Tx) :
  committed lib (txs ++ txs') = ((contract lib).history txs' (committed lib txs)).1
  := by
  rw [committed, (contract lib).history_append, committed]

/-! ### Sound storages -/

/-- What a stored subscription always has. -/
structure WellFormed (id : ℕ) (sub : Subscription) : Prop where
  id_eq : sub.id = id
  keyPath_ne : sub.keyPath ≠ []
  watchKey_ne : sub.watchKey ≠ []
  callbackContract_ne : sub.callbackContract ≠ ""

theorem WellFormed.withStatus {id : ℕ} {sub : Subscription} (h : WellFormed id sub)
    (status : SubscriptionStatus) :
  WellFormed id { sub with status := status }
  := ⟨h.id_eq, h.keyPath_ne, h.watchKey_ne, h.callbackContract_ne⟩

/-- Subscriptions are stored under all numbers from 1 to below the next free one, and under no
others. -/
structure Storage.Sound (s : Storage) : Prop where
  nextId_pos : 0 < s.nextId
  isSome_load : ∀ id, (s.load id).isSome ↔ 0 < id ∧ id < s.nextId
  wellFormed : ∀ {id sub}, s.load id = some sub → WellFormed id sub

theorem Storage.Sound.lt_nextId {s : Storage} (hs : s.Sound) {id : ℕ} {sub : Subscription}
    (h : s.load id = some sub) :
  id < s.nextId
  := by
  have hsome : (s.load id).isSome := by simp [h]
  apply ((hs.isSome_load id).mp hsome).2

theorem Storage.sound_initial :
  Storage.initial.Sound
  where
  nextId_pos := by decide
  isSome_load id := by
    have : ¬ (0 < id ∧ id < 1) := by omega
    simpa [Storage.initial, Storage.load] using this
  wellFormed h := by simp at h

theorem Storage.Sound.create {s : Storage} (hs : s.Sound) {sub : Subscription}
    (hsub : WellFormed s.nextId sub) :
  (s.create sub).Sound
  where
  nextId_pos := Nat.succ_pos _
  isSome_load id := by
    have hpos := hs.nextId_pos
    rw [Storage.load_create, Storage.nextId_create]
    by_cases h : id = s.nextId
    · subst h
      simp [hpos]
    · rw [if_neg h, hs.isSome_load]
      omega
  wellFormed {id sub'} h := by
    rw [Storage.load_create] at h
    split_ifs at h with hid
    · obtain rfl := Option.some.inj h
      rw [hid]
      apply hsub
    · apply hs.wellFormed h

theorem Storage.Sound.save {s : Storage} (hs : s.Sound) {id : ℕ} {sub : Subscription}
    (hload : (s.load id).isSome) (hsub : WellFormed id sub) :
  (s.save id sub).Sound
  where
  nextId_pos := hs.nextId_pos
  isSome_load k := by
    rw [Storage.load_save, Storage.nextId_save, ← hs.isSome_load k]
    by_cases h : k = id
    · subst h
      simp [hload]
    · rw [if_neg h]
  wellFormed {k sub'} h := by
    rw [Storage.load_save] at h
    split_ifs at h with hk
    · obtain rfl := Option.some.inj h
      rw [hk]
      apply hsub
    · apply hs.wellFormed h

theorem Succeeds.sound {env : Env} {call : Call} {s s' : Storage} {r : Option (SubMsg Callback)}
    (h : Succeeds lib env call s r s') (hs : s.Sound) :
  s'.Sound
  := by
  cases h with
  | created _ hpath hkey hcallback => apply hs.create ⟨rfl, hpath, hkey, hcallback⟩
  | triggered _ hload =>
      apply hs.save (by simp [hload])
      apply (hs.wellFormed hload).withStatus

/-- After a call that asks for a message, the subscription the message is for is triggered, and
it was active before. -/
theorem Succeeds.triggered_of_some {env : Env} {call : Call} {s s₁ : Storage}
    {sub : SubMsg Callback} (h : Succeeds lib env call s (some sub) s₁) :
  ∃ x, s.load sub.id = some x ∧ x.status = .active ∧
    s₁ = s.save sub.id { x with status := .triggered }
  := by
  cases h with
  | triggered _ hload htriggers => exact ⟨_, hload, htriggers.active, rfl⟩

/-- The reply that may follow a call always succeeds, and marks the subscription the call
triggered as failed. -/
theorem reply_of_succeeds {env : Env} {call : Call} {s s₁ : Storage} {sub : SubMsg Callback}
    (h : Succeeds lib env call s (some sub) s₁) (error : String) :
  ∃ x, s.load sub.id = some x ∧ x.status = .active ∧
    s₁.load sub.id = some { x with status := .triggered } ∧
    (contract lib).reply env sub.id error s₁
      = (.ok (), s₁.save sub.id { x with status := .failed error })
  := by
  obtain ⟨x, hload, hactive, rfl⟩ := h.triggered_of_some
  use x, hload, hactive
  rw [contract_reply, Storage.load_save_self]
  exact ⟨rfl, rfl⟩

/-- What the reply that may follow a call finds and leaves. -/
theorem Succeeds.replied {env : Env} {call : Call} {s s₁ s₂ : Storage} {sub : SubMsg Callback}
    (h : Succeeds lib env call s (some sub) s₁) {error : String}
    (hreply : (contract lib).reply env sub.id error s₁ = (.ok (), s₂)) :
  ∃ x, s.load sub.id = some x ∧ s₁.load sub.id = some { x with status := .triggered } ∧
    s₂ = s₁.save sub.id { x with status := .failed error }
  := by
  obtain ⟨x, hload, -, hload₁, hreply'⟩ := reply_of_succeeds h error
  use x, hload, hload₁
  rw [hreply'] at hreply
  apply (Prod.mk.inj hreply).2.symm

/-- The reply that may follow a call is not refused. -/
theorem Succeeds.not_replyRefused {env : Env} {call : Call} {s s₁ s₂ : Storage}
    {sub : SubMsg Callback} (h : Succeeds lib env call s (some sub) s₁) {error : String}
    {e : Abort} :
  (contract lib).reply env sub.id error s₁ ≠ (.error e, s₂)
  := by
  obtain ⟨x, -, -, -, hreply'⟩ := reply_of_succeeds h error
  rw [hreply']
  simp

theorem soundRule (lib : Libraries) :
  (contract lib).InvariantRule Storage.Sound
  where
  execute hs hexec := (contract_execute_ok hexec).sound hs
  reply {s env message sub s₁ error s₂} hs hexec hs₁ hreply := by
    obtain ⟨x, hload, hload₁, rfl⟩ := (contract_execute_ok hexec).replied hreply
    apply hs₁.save (by simp [hload₁])
    apply (hs.wellFormed hload).withStatus

theorem sound_of_reachable {s : Storage} (hs : Reachable lib s) :
  s.Sound
  := (soundRule lib).reachable Storage.sound_initial hs

/-! ### The subscriptions in order -/

theorem Storage.mem_toList_iff {s : Storage} {id : ℕ} {sub : Subscription} :
  (id, sub) ∈ s.subscriptions.toList ↔ s.load id = some sub
  := Std.ExtTreeMap.mem_toList_iff_getElem?_eq_some

theorem Storage.pairwise_toList (s : Storage) :
  s.subscriptions.toList.Pairwise (fun e e' => e.1 < e'.1)
  := by
  apply Std.ExtTreeMap.ordered_keys_toList.imp
  intro e e' h
  apply Nat.compare_eq_lt.mp h

/-- The numbers of the subscriptions, in order, are those from 1 to below the next free one. -/
theorem Storage.map_fst_toList {s : Storage} (hs : s.Sound) :
  s.subscriptions.toList.map Prod.fst = List.range' 1 (s.nextId - 1)
  := by
  have hsorted : (s.subscriptions.toList.map Prod.fst).Pairwise (· < ·) :=
    List.pairwise_map.mpr (pairwise_toList s)
  have hsorted' : (List.range' 1 (s.nextId - 1)).Pairwise (· < ·) := List.pairwise_lt_range'
  have hmem : ∀ id,
      id ∈ s.subscriptions.toList.map Prod.fst ↔ id ∈ List.range' 1 (s.nextId - 1) := by
    intro id
    have hpos := hs.nextId_pos
    rw [List.mem_range'_1]
    constructor
    · intro h
      obtain ⟨⟨id', sub⟩, he, rfl⟩ := List.mem_map.mp h
      have hload := mem_toList_iff.mp he
      have := (hs.isSome_load id').mp (by simp [hload])
      dsimp only
      omega
    · intro h
      have hsome := (hs.isSome_load id).mpr (by omega)
      obtain ⟨sub, hload⟩ := Option.isSome_iff_exists.mp hsome
      apply List.mem_map.mpr
      exact ⟨(id, sub), mem_toList_iff.mpr hload, rfl⟩
  have hperm := (List.perm_ext_iff_of_nodup (hsorted.imp Nat.ne_of_lt)
    (hsorted'.imp Nat.ne_of_lt)).mpr hmem
  apply hperm.eq_of_pairwise _ hsorted hsorted'
  intro a b _ _ hab hba
  omega

/-- The first `n` subscriptions are those with a number up to `n`. -/
theorem Storage.mem_take_toList_iff {s : Storage} (hs : s.Sound) {n id : ℕ} {sub : Subscription} :
  (id, sub) ∈ s.subscriptions.toList.take n ↔ s.load id = some sub ∧ id ≤ n
  := by
  have htake : (s.subscriptions.toList.take n).map Prod.fst
      = List.range' 1 (min n (s.nextId - 1)) := by
    rw [List.map_take, map_fst_toList hs]
    rcases Nat.le_total n (s.nextId - 1) with h | h
    · rw [List.take_range'_of_length_ge h, Nat.min_eq_left h]
    · rw [List.take_range'_of_length_le h, Nat.min_eq_right h]
  constructor
  · intro h
    use mem_toList_iff.mp (List.mem_of_mem_take h)
    have hid : id ∈ (s.subscriptions.toList.take n).map Prod.fst := List.mem_map.mpr ⟨_, h, rfl⟩
    rw [htake, List.mem_range'_1] at hid
    omega
  · rintro ⟨hload, hid⟩
    have hbounds := (hs.isSome_load id).mp (by simp [hload])
    have hmem : id ∈ (s.subscriptions.toList.take n).map Prod.fst := by
      rw [htake, List.mem_range'_1]
      omega
    obtain ⟨⟨id', sub'⟩, he, rfl⟩ := List.mem_map.mp hmem
    have hload' := mem_toList_iff.mp (List.mem_of_mem_take he)
    rw [Storage.load_unique hload hload']
    apply he

/-! ### Settled subscriptions -/

/-- The subscription exists and is not active. -/
def Storage.Settled (s : Storage) (id : ℕ) : Prop :=
  ∃ sub, s.load id = some sub ∧ sub.status ≠ .active

/-- A call that succeeds leaves a settled subscription as it is. -/
theorem Succeeds.load_of_settled {env : Env} {call : Call} {s s' : Storage}
    {r : Option (SubMsg Callback)} (h : Succeeds lib env call s r s') (hs : s.Sound) {id : ℕ}
    (hid : s.Settled id) :
  s'.load id = s.load id
  := by
  obtain ⟨sub, hload, hstatus⟩ := hid
  cases h with
  | created =>
      have hne : id ≠ s.nextId := (hs.lt_nextId hload).ne
      rw [Storage.load_create, if_neg hne]
  | triggered _ hload' htriggers =>
      apply Storage.load_save_of_ne
      rintro rfl
      obtain rfl := Storage.load_unique hload hload'
      exact absurd htriggers.active hstatus

/-- A call for a message does not concern a settled subscription. -/
theorem Succeeds.id_ne_of_settled {env : Env} {call : Call} {s s₁ : Storage}
    {sub : SubMsg Callback} (h : Succeeds lib env call s (some sub) s₁) {id : ℕ}
    (hid : s.Settled id) :
  id ≠ sub.id
  := by
  obtain ⟨x, hload, hactive, -⟩ := h.triggered_of_some
  obtain ⟨y, hload', hstatus⟩ := hid
  rintro rfl
  obtain rfl := Storage.load_unique hload hload'
  contradiction

/-- What is stored of a settled subscription stays. -/
theorem settledRule (lib : Libraries) {id : ℕ} {sub : Subscription} (hsub : sub.status ≠ .active) :
  (contract lib).InvariantRule (fun s => s.Sound ∧ s.load id = some sub)
  where
  execute := by
    rintro s env message r s' ⟨hs, hload⟩ hexec
    have hok := contract_execute_ok hexec
    use hok.sound hs
    rw [hok.load_of_settled hs ⟨sub, hload, hsub⟩, hload]
  reply := by
    rintro s env message sub' s₁ error s₂ ⟨hs, hload⟩ hexec ⟨hs₁, hload₁⟩ hreply
    have hok := contract_execute_ok hexec
    use (soundRule lib).reply hs hexec hs₁ hreply
    obtain ⟨x, -, -, rfl⟩ := hok.replied hreply
    have hne := hok.id_ne_of_settled ⟨sub, hload, hsub⟩
    rw [Storage.load_save_of_ne _ _ hne, hload₁]

/-- A subscription that exists goes on to exist. -/
theorem existsRule (lib : Libraries) (id : ℕ) :
  (contract lib).InvariantRule (fun s => (s.load id).isSome)
  where
  execute := by
    intro s env message r s' hs hexec
    cases contract_execute_ok hexec with
    | created =>
        rw [Storage.load_create]
        split_ifs
        · rfl
        · apply hs
    | triggered =>
        rw [Storage.load_save]
        split_ifs
        · rfl
        · apply hs
  reply := by
    intro s env message sub s₁ error s₂ _ hexec hs₁ hreply
    obtain ⟨x, -, -, rfl⟩ := (contract_execute_ok hexec).replied hreply
    rw [Storage.load_save]
    split_ifs
    · rfl
    · apply hs₁

/-! ### An accepted proof -/

/-- A proof of the value `37` under the key `01`, by one leaf. -/
def sampleIavl : Binary :=
  [0x0A, 0x13, 0x0A, 0x01, 0x01, 0x12, 0x01, 0x37, 0x1A, 0x0B, 0x08, 0x01, 0x18, 0x01, 0x20,
   0x01, 0x2A, 0x03, 0x00, 0x02, 0x02]

/-- The root of the tree of that leaf. -/
def sampleModuleRoot : Binary :=
  [0xDC, 0xF5, 0x44, 0x94, 0x7E, 0xFF, 0xA6, 0xD5, 0xED, 0xF5, 0x28, 0xAD, 0x1B, 0x4F, 0xE8,
   0x29, 0x93, 0x32, 0xE1, 0xE2, 0x64, 0x42, 0xDD, 0x50, 0x68, 0xFD, 0x59, 0xCA, 0x0F, 0x41,
   0x63, 0xBD]

/-- A proof of that root under the name `wasm`, by one leaf. -/
def sampleSimple : Binary :=
  [0x0A, 0x33, 0x0A, 0x04, 0x77, 0x61, 0x73, 0x6D, 0x12, 0x20] ++ sampleModuleRoot
    ++ [0x1A, 0x09, 0x08, 0x01, 0x18, 0x01, 0x20, 0x01, 0x2A, 0x01, 0x00]

/-- The root of the tree of that leaf. -/
def sampleAppHash : Binary :=
  [0x6C, 0x89, 0x4D, 0x8A, 0xFB, 0x3A, 0x81, 0x5E, 0x26, 0x19, 0x25, 0xBB, 0x94, 0x14, 0x80,
   0xAA, 0x51, 0x49, 0x30, 0xB6, 0xF8, 0x5B, 0xF9, 0xDE, 0x6C, 0xCE, 0x29, 0xC0, 0x3F, 0x99,
   0xE4, 0x3B]

/-- The message with both proofs. -/
def sampleProof : Binary :=
  [0x0A, 0x15] ++ sampleIavl ++ [0x0A, 0x35] ++ sampleSimple

/-- Libraries that know these proofs and no others. -/
def Libraries.sample : Libraries where
  CommitmentProof := ProofSpec
  ExistenceProof := ProofSpec
  decodeMerkleProof bytes :=
    if bytes = sampleProof then .ok [sampleIavl, sampleSimple]
    else .error "failed to decode Protobuf message"
  decodeCommitmentProof bytes :=
    if bytes = sampleIavl then .ok .iavl
    else if bytes = sampleSimple then .ok .tendermint
    else .error "failed to decode Protobuf message"
  exist := some
  calculateExistenceRoot
    | .iavl => .ok sampleModuleRoot
    | .tendermint => .ok sampleAppHash
  verifyMembership
    | .iavl, .iavl, root, key, value => root = sampleModuleRoot && key = [1] && value = [0x37]
    | .tendermint, .tendermint, root, key, value =>
        root = sampleAppHash && key = [0x77, 0x61, 0x73, 0x6D] && value = sampleModuleRoot
    | _, _, _, _, _ => false
  float _ := none
  jsonError _ := "expected value at line 1 column 1"
  kind _ := "type: Subscription"

/-- A subscription to the key `01` of the store `wasm`. -/
def sampleSubscribed : Subscription where
  id := 1
  creator := "alice"
  clientId := "07-tendermint-42"
  keyPath := ["wasm"]
  watchKey := [1]
  condition := .equals [0x37]
  callbackContract := "callback"
  callbackMsg := []
  status := .active
  createdAt := 10
  expiresAt := none

/-- The call that makes it. -/
def sampleSubscribe : Call :=
  ⟨⟨"alice"⟩, .subscribe "07-tendermint-42" ["wasm"] [1] (.equals [0x37]) "callback" [] none⟩

/-- The transaction that makes it. -/
def sampleSubscription : Tx :=
  .message ⟨10⟩ sampleSubscribe (fun _ => .succeed) (fun _ => "")

theorem sample_triggers :
  Triggers .sample 20 sampleSubscribed sampleAppHash sampleProof [1] [0x37]
  where
  active := rfl
  unexpired := rfl
  key_eq := rfl
  proven := by decide +kernel
  met := by decide

/-- A proof for it submitted at block 20. -/
def sampleSubmission : Tx :=
  .message ⟨20⟩ ⟨⟨"bob"⟩, .submitProof 1 ⟨2, 100⟩ sampleAppHash sampleProof [1] [0x37]⟩
    (fun _ => .succeed) (fun _ => "")

end Hub
