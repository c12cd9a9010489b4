import InterchainEvents.Platform.Paging
import InterchainEvents.Hub.Lifecycle
import InterchainEvents.Hub.Frame
import InterchainEvents.Registry.Run

/-!
# Listing the subscriptions and the attestations

Both contracts list what they store in pages (`queryListSubscriptions`, `queryListAttestations`):
the hub in the order of the numbers, the registry in the order of the bytes of the identifiers. A
page is one of the table of all entries, and no entry point takes a key out of it, so paging
through it loses and repeats nothing, whatever is committed meanwhile (`paging`).
-/

/-! ### The subscriptions -/

namespace Hub

open Shared

/-- The subscriptions, in the order of their numbers. -/
def Storage.listing (s : Storage) : List Subscription :=
  s.subscriptions.toList.map Prod.snd

theorem Storage.Sound.mem_listing_iff {s : Storage} (hs : s.Sound) {sub : Subscription} :
  s.load sub.id = some sub ↔ sub ∈ s.listing
  := by
  rw [Storage.listing, List.mem_map]
  constructor
  · intro hload
    exact ⟨(sub.id, sub), Storage.mem_toList_iff.mpr hload, rfl⟩
  · rintro ⟨⟨id, sub⟩, hmem, rfl⟩
    have hload := Storage.mem_toList_iff.mp hmem
    rw [(hs.wellFormed hload).id_eq, hload]

theorem Storage.Sound.pairwise_listing {s : Storage} (hs : s.Sound) :
  (s.listing.map Subscription.id).Pairwise (· < ·)
  := by
  rw [Storage.listing, List.map_map, List.pairwise_map]
  apply (Storage.pairwise_toList s).imp_of_mem
  rintro ⟨id, sub⟩ ⟨id', sub'⟩ hmem hmem' hlt
  have hid := (hs.wellFormed (Storage.mem_toList_iff.mp hmem)).id_eq
  have hid' := (hs.wellFormed (Storage.mem_toList_iff.mp hmem')).id_eq
  simpa [hid, hid'] using hlt

/-- A page of the subscriptions is one of all of them. -/
theorem queryListSubscriptions_eq_page {s : Storage} (hs : s.Sound) (startAfter limit : Option ℕ) :
  queryListSubscriptions s startAfter limit
    = Paging.page (· < ·) Subscription.id (min (limit.getD 30) 100) startAfter s.listing
  := by
  rw [queryListSubscriptions, Storage.range, Paging.page, Storage.listing, List.filter_map,
    List.map_take]
  congr 2
  apply List.filter_congr
  rintro ⟨id, sub⟩ hmem
  have hid := (hs.wellFormed (Storage.mem_toList_iff.mp hmem)).id_eq
  cases startAfter <;> simp [Paging.After, hid]

/-- A subscription that is listed stays listed. -/
theorem Storage.Extends.exists_mem_listing {s s' : Storage} (h : s.Extends s') (hs : s.Sound)
    (hs' : s'.Sound) {sub : Subscription} (hsub : sub ∈ s.listing) :
  ∃ sub' ∈ s'.listing, sub'.id = sub.id
  := by
  obtain ⟨status, hload⟩ := h.2 _ _ (hs.mem_listing_iff.mpr hsub)
  exact ⟨{ sub with status := status }, hs'.mem_listing_iff.mp hload, rfl⟩

end Hub

/-! ### The attestations -/

namespace Registry

open Shared Platform

/-- Identifiers in the order of their bytes. -/
def KeyLt (id id' : String) : Prop := utf8 id < utf8 id'

instance : DecidableRel KeyLt :=
  fun id id' => inferInstanceAs (Decidable (utf8 id < utf8 id'))

instance : IsStrictOrder String KeyLt where
  irrefl id := List.lt_irrefl (utf8 id)
  trans _ _ _ h h' := List.lt_trans (α := UInt8) h h'

/-- All keys are texts. -/
def Storage.Texts (s : Storage) : Prop :=
  ∀ e ∈ s.attestations.toList, ∃ id, utf8 id = e.1

theorem Storage.mem_toList_iff {s : Storage} {id : String} {attestation : Attestation} :
  (utf8 id, attestation) ∈ s.attestations.toList ↔ s.load id = some attestation
  := Std.ExtTreeMap.mem_toList_iff_getElem?_eq_some

theorem textsRule :
  contract.InvariantRule Storage.Texts
  where
  execute := by
    intro s env call r s' hs hexec
    obtain ⟨id, status, -, -, -, -, rfl⟩ := contract_execute_ok hexec
    rintro ⟨k, a⟩ hmem
    have hget := Std.ExtTreeMap.mem_toList_iff_getElem?_eq_some.mp hmem
    rw [Storage.save, Std.ExtTreeMap.getElem?_insert] at hget
    split_ifs at hget with hk
    · exact ⟨id, Std.LawfulEqOrd.eq_of_compare hk⟩
    · apply hs (k, a) (Std.ExtTreeMap.mem_toList_iff_getElem?_eq_some.mpr hget)
  reply := by
    intro s env call sub
    exact sub.payload.elim

theorem texts_committed (txs : List Tx) :
  (committed txs).Texts
  := by
  apply textsRule.reachable _ (contract.reachable_history txs .initial)
  intro e he
  cases Std.ExtTreeMap.mem_toList_iff_getElem?_eq_some.mp he

/-- What is attested stays attested. -/
theorem existsRule (id : String) :
  contract.InvariantRule (fun s => (s.load id).isSome)
  where
  execute := by
    intro s env call r s' hs hexec
    obtain ⟨id', status, -, -, -, -, rfl⟩ := contract_execute_ok hexec
    rw [Storage.load_save]
    split_ifs
    · rfl
    · apply hs
  reply := by
    intro s env call sub
    exact sub.payload.elim

/-- The answer about an entry. -/
def answerOf (e : String × Attestation) : AttestationResponse :=
  ⟨e.1, e.2.status, e.2.attester, e.2.height⟩

theorem listed_utf8 (e : String × Attestation) :
  listed (utf8 e.1, e.2) = some (answerOf e)
  := by
  simp [listed, utf8, answerOf]

/-- The attestations, in the order of the bytes of their identifiers. -/
def Storage.listing (s : Storage) : List AttestationResponse :=
  s.attestations.toList.filterMap listed

/-- The entries, if all keys are texts. -/
theorem Storage.Texts.exists_entries {s : Storage} (hs : s.Texts) :
  ∃ entries : List (String × Attestation),
    s.attestations.toList = entries.map (fun e => (utf8 e.1, e.2)) ∧
      s.listing = entries.map answerOf
  := by
  have hlift : ∀ e ∈ s.attestations.toList, ∃ x : String × Attestation, (utf8 x.1, x.2) = e := by
    rintro ⟨k, a⟩ he
    obtain ⟨id, rfl⟩ := hs _ he
    exact ⟨(id, a), rfl⟩
  obtain ⟨entries, hentries⟩ :=
    (Set.range_list_map fun x : String × Attestation => (utf8 x.1, x.2)).ge hlift
  use entries, hentries.symm
  rw [Storage.listing, ← hentries, List.filterMap_map]
  have hlisted : listed ∘ (fun x : String × Attestation => (utf8 x.1, x.2)) = some ∘ answerOf := by
    funext x
    apply listed_utf8
  rw [hlisted, List.filterMap_eq_map]

theorem Storage.Texts.mem_listing_iff {s : Storage} (hs : s.Texts) {a : AttestationResponse} :
  queryAttestation s a.id = some a ↔ a ∈ s.listing
  := by
  obtain ⟨entries, hentries, hlisting⟩ := hs.exists_entries
  have hmem : ∀ id attestation, (id, attestation) ∈ entries ↔ s.load id = some attestation := by
    intro id attestation
    rw [← Storage.mem_toList_iff, hentries, List.mem_map]
    constructor
    · intro h
      exact ⟨_, h, rfl⟩
    · rintro ⟨⟨id', attestation'⟩, h, heq⟩
      obtain ⟨hid, rfl⟩ := Prod.mk.inj heq
      rwa [← utf8_injective hid]
  rw [hlisting, List.mem_map, queryAttestation, Option.map_eq_some_iff]
  constructor
  · rintro ⟨attestation, hload, heq⟩
    exact ⟨(a.id, attestation), (hmem _ _).mpr hload, heq⟩
  · rintro ⟨⟨id, attestation⟩, h, rfl⟩
    exact ⟨attestation, (hmem _ _).mp h, rfl⟩

/-- An identifier that is listed stays listed. -/
theorem exists_mem_listing_history {s : Storage} (hs : s.Texts) (txs : List Tx)
    (hs' : (contract.history txs s).1.Texts) {a : AttestationResponse} (ha : a ∈ s.listing) :
  ∃ a' ∈ (contract.history txs s).1.listing, a'.id = a.id
  := by
  have hload : (s.load a.id).isSome := by
    have hquery := hs.mem_listing_iff.mpr ha
    rw [queryAttestation, Option.map_eq_some_iff] at hquery
    obtain ⟨attestation, hload, -⟩ := hquery
    simp [hload]
  have hload' : ((contract.history txs s).1.load a.id).isSome :=
    (existsRule a.id).historyRule.history txs (h := []) hload
  obtain ⟨attestation, hload'⟩ := Option.isSome_iff_exists.mp hload'
  refine ⟨answerOf (a.id, attestation), ?_, rfl⟩
  apply hs'.mem_listing_iff.mp
  rw [queryAttestation, answerOf, hload']
  rfl

theorem Storage.Texts.pairwise_listing {s : Storage} (hs : s.Texts) :
  (s.listing.map AttestationResponse.id).Pairwise KeyLt
  := by
  obtain ⟨entries, hentries, hlisting⟩ := hs.exists_entries
  have hsorted : s.attestations.toList.Pairwise fun e e' => compare e.1 e'.1 = .lt :=
    Std.ExtTreeMap.ordered_keys_toList
  rw [hentries, List.pairwise_map] at hsorted
  rw [hlisting, List.map_map, List.pairwise_map]
  apply hsorted.imp
  intro e e' h
  apply (Rust.compare_eq_lt_iff _ _).mp h

/-- A page of the attestations is one of all of them, and is never refused. -/
theorem queryListAttestations_eq_page {s : Storage} (hs : s.Texts) (startAfter : Option String)
    (limit : Option ℕ) :
  queryListAttestations s startAfter limit
    = some (Paging.page KeyLt AttestationResponse.id (min (limit.getD 30) 100) startAfter
        s.listing)
  := by
  obtain ⟨entries, hentries, hlisting⟩ := hs.exists_entries
  have hlisted : listed ∘ (fun e : String × Attestation => (utf8 e.1, e.2))
      = fun e => pure (answerOf e) := by
    funext e
    apply listed_utf8
  rw [queryListAttestations, Storage.range, hentries, List.filter_map, ← List.map_take,
    List.mapM_map, hlisted, List.mapM_pure, Paging.page, hlisting, List.filter_map, ← List.map_take]
  apply congrArg some
  congr 2
  apply List.filter_congr
  intro e _
  cases startAfter with
  | none => simp [Paging.After]
  | some id =>
      have hafter : Paging.After KeyLt (some id) (answerOf e).id ↔ utf8 id < utf8 e.1 := by
        simp [Paging.After, KeyLt, answerOf]
      apply (decide_eq_decide.mpr hafter).symm

end Registry

/-! ### Paging -/

namespace Contracts

open Shared

/-- **Paging loses and repeats nothing.** Take any run, and go on with any transactions between the
queries for one page and the next. For every limit but 0, of the subscriptions and of the
attestations: no query fails; a page has at most as many entries as the limit says, 30 without one
and never more than 100; what it has was stored when it was asked for; the keys ascend from the
first page to the last; and when a page is empty, every key that there was at the first query was
returned, once. A page is empty some time, if the keys ever stored are finitely many. -/
theorem paging (lib : Hub.Libraries) (limit : Option ℕ) (hlimit : limit ≠ some 0) :
  (∀ (txs : List Hub.Tx) (between : ℕ → List Hub.Tx),
    let state := fun i => Hub.committed lib (txs ++ (List.range i).flatMap between)
    ∃ pages : ℕ → List Subscription,
      (∀ i, Paging.walk
        (fun i startAfter => some (Hub.queryListSubscriptions (state i) startAfter limit))
        Subscription.id i = some (pages i)) ∧
      Paging.LosesNothing (· < ·) Subscription.id (min (limit.getD 30) 100)
        (fun i sub => (state i).load sub.id = some sub) pages) ∧
    ∀ (txs : List Registry.Tx) (between : ℕ → List Registry.Tx),
      let state := fun i => Registry.committed (txs ++ (List.range i).flatMap between)
      ∃ pages : ℕ → List Registry.AttestationResponse,
        (∀ i, Paging.walk
          (fun i startAfter => Registry.queryListAttestations (state i) startAfter limit)
          Registry.AttestationResponse.id i = some (pages i)) ∧
        Paging.LosesNothing Registry.KeyLt Registry.AttestationResponse.id
          (min (limit.getD 30) 100)
          (fun i a => Registry.queryAttestation (state i) a.id = some a) pages
  := by
  have hbound : min (limit.getD 30) 100 ≠ 0 := by
    cases limit with
    | none => decide
    | some n =>
        have hn : n ≠ 0 := fun h => hlimit (congrArg some h)
        simp only [Option.getD_some]
        omega
  have hnext : ∀ {α : Type} (txs : List α) (between : ℕ → List α) (i : ℕ),
      txs ++ (List.range (i + 1)).flatMap between
        = (txs ++ (List.range i).flatMap between) ++ between i := by
    intro α txs between i
    simp [List.range_succ]
  constructor
  · intro txs between state
    have hs : ∀ i, (state i).Sound := fun i =>
      Hub.sound_of_reachable (Hub.reachable_committed lib _)
    apply Paging.exists_walk _ hbound
    · intro i
      apply (hs i).pairwise_listing
    · intro i sub hsub
      have hextends : (state i).Extends (state (i + 1)) := by
        simp only [state, hnext txs between i]
        apply Hub.extends_committed
      apply hextends.exists_mem_listing (hs i) (hs (i + 1)) hsub
    · intro i sub
      apply (hs i).mem_listing_iff
    · intro i startAfter
      rw [Hub.queryListSubscriptions_eq_page (hs i)]
  · intro txs between state
    have hs : ∀ i, (state i).Texts := fun i => Registry.texts_committed _
    apply Paging.exists_walk _ hbound
    · intro i
      apply (hs i).pairwise_listing
    · intro i a ha
      have hstate : state (i + 1) = (Registry.contract.history (between i) (state i)).1 := by
        simp only [state, hnext txs between i]
        apply Registry.committed_append
      have hs' := hs (i + 1)
      rw [hstate] at hs' ⊢
      apply Registry.exists_mem_listing_history (hs i) _ hs' ha
    · intro i a
      apply (hs i).mem_listing_iff
    · intro i startAfter
      rw [Registry.queryListAttestations_eq_page (hs i)]

theorem paging_sample :
  ∃ (pages : ℕ → List Subscription) (N : ℕ), pages N = [] ∧ (∀ i, (pages i).length ≤ 1) ∧
    ((Paging.returned pages N).map Subscription.id).count 1 = 1 ∧
    ((Paging.returned pages N).map Subscription.id).count 2 = 1
  := by
  obtain ⟨pages, -, hpages⟩ := (paging .sample (some 1) (by decide)).1
    [Hub.sampleSubscription, Hub.shortSubscription] fun _ => []
  have hstate : ∀ i, [Hub.sampleSubscription, Hub.shortSubscription]
      ++ (List.range i).flatMap (fun _ => [])
        = [Hub.sampleSubscription, Hub.shortSubscription] := by
    simp
  simp only [hstate] at hpages
  have hsound := Hub.sound_of_reachable (Hub.reachable_committed .sample
    [Hub.sampleSubscription, Hub.shortSubscription])
  obtain ⟨N, hne, hnil⟩ := hpages.ends (by
    apply (Set.finite_lt_nat 3).subset
    rintro id ⟨i, sub, hload, rfl⟩
    apply hsound.lt_nextId hload)
  have honce := hpages.once N hne hnil
  refine ⟨pages, N, hnil, hpages.length_le, honce Hub.sampleSubscribed (by decide), ?_⟩
  apply honce { Hub.shortSubscribed with id := 2 } (by decide)

end Contracts
