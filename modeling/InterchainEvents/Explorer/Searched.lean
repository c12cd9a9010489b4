import InterchainEvents.Explorer.Fetched

/-!
# What the searches give

The nodes that a search gives are known, whatever nodes tell: balances of an address, denoms of a
creator, and the entries of a contract's storage, in the groups of their namespaces or by
themselves (`gives_searchContracts`).
-/

namespace Explorer

open Shared Async

variable {σ Cmd : Type} {told : (req : Request) → req.Answer → Prop} {node : Node}

variable (told) in
/-- The nodes of a search result are known, and are groups or leaves. -/
def FoundFits (result : SearchResult) : Prop :=
  ∀ x ∈ result.children.getD [],
    Grown told x ∧ (x.object.role = .group ∨ x.object.role = .leaf)

theorem foundFits_notFound :
  FoundFits told notFound
  := by
  simp [FoundFits, notFound]

/-! ### Balances and denoms -/

theorem gives_searchBank {chain : Chain} (hchain : chain ∈ chains) (hnode : Known told node)
    (hopens : Opens node) (hmodule : node.moduleName = "bank".toList) (key : List Char) :
  Gives told (FoundFits told) (searchBank chain.rest node.toNodeData key : Rest σ Cmd _)
  := by
  unfold searchBank
  split_ifs with hbalances
  · apply gives_tryCatch
    · apply gives_bind (gives_fetch fun _ h => h)
      intro res hres
      dsimp only
      split_ifs
      · apply gives_pure
        intro x hx
        obtain ⟨coin, hcoin, rfl⟩ := List.mem_map.mp hx
        have hpath : node.path = ["bank".toList, "balances".toList] :=
          path_of_contains hnode hopens (role_ne_group hnode hmodule (by decide)) hmodule hbalances
            (by decide)
        suffices hsaid : Says told (makeLeaf "bank".toList (node.path ++ [key]) coin.denom
            coin.amount ⟨some "bank".toList, some (toHex
              ("balances/".toList ++ key ++ '/' :: coin.denom))⟩).toNodeData from
          ⟨(grown_makeLeaf hsaid).1, .inr rfl⟩
        intro k hk
        obtain rfl := Option.some.inj hk
        rw [watchKeyBytes_toHex]
        simp only [makeLeaf, hpath]
        apply Reported.balance hchain hres hcoin
      · apply gives_pure foundFits_notFound
    · exact fun _ => gives_pure foundFits_notFound
  · apply gives_pure foundFits_notFound

theorem gives_searchTokenFactory (rest : List Char) (node : NodeData) (key : List Char) :
  Gives told (FoundFits told) (searchTokenFactory rest node key : Rest σ Cmd _)
  := by
  unfold searchTokenFactory
  split_ifs
  · apply gives_tryCatch
    · apply gives_bind (gives_fetch fun _ _ => trivial)
      intro res _
      dsimp only
      split_ifs
      · apply gives_pure
        intro x hx
        obtain ⟨d, -, rfl⟩ := List.mem_map.mp hx
        exact ⟨(grown_plainLeaf _ _ _ _).1, .inr rfl⟩
      · apply gives_pure foundFits_notFound
    · exact fun _ => gives_pure foundFits_notFound
  · apply gives_pure foundFits_notFound

/-! ### Entries -/

/-- An entry that stands in the group of a namespace comes from a model. -/
def FromModel (models : List Model) (ns : List Char) (e : Entry) : Prop :=
  ∃ m ∈ models, ∃ raw key, Hex.decode? m.key = some raw ∧ entryParts raw = some (ns, key) ∧
    e.mapKey = mapKeyText key ∧ e.value = m.decodedValue

/-- What every result of a function has, all have. -/
theorem forall_of_mapM_some {α β : Type} {f : α → Option β} {P : β → Prop} {xs : List α}
    (hf : ∀ x ∈ xs, ∀ y, f x = some y → P y) {ys : List β} (h : xs.mapM f = some ys) :
  ∀ y ∈ ys, P y
  := by
  induction xs generalizing ys with
  | nil =>
      obtain rfl := Option.some.inj h
      simp
  | cons x xs ih =>
      rw [List.mapM_cons] at h
      obtain ⟨y, hy, h⟩ := Option.bind_eq_some_iff.mp h
      obtain ⟨rest, hrest, h⟩ := Option.bind_eq_some_iff.mp h
      obtain rfl := Option.some.inj h
      intro z hz
      rcases List.mem_cons.mp hz with rfl | hz
      · apply hf x List.mem_cons_self _ hy
      · apply ih (fun x' hx' => hf x' (List.mem_cons_of_mem x hx')) hrest z hz

/-- The leaf of an entry that is in no group. -/
def itemLeaf (path : List (List Char)) (address : List Char) (payload : Binary) (m : Model) :
    StateNode :=
  makeLeaf "wasm".toList (path ++ [address]) (decodeWasmStateKey m.key) m.decodedValue
    ⟨some "wasm".toList, some ("03".toList ++ Hex.encode payload ++ m.key)⟩

/-- A leaf that is in no group comes from a model. -/
def ItemFrom (models : List Model) (path : List (List Char)) (address : List Char)
    (x : StateNode) : Prop :=
  ∃ payload, ∃ m ∈ models, ∃ raw, bech32AddrToHex address = some (Hex.encode payload) ∧
    Hex.decode? m.key = some raw ∧ entryParts raw = none ∧ x = itemLeaf path address payload m

/-- What is placed comes from the models, and no group is empty. -/
structure Placed (models : List Model) (path : List (List Char)) (address : List Char)
    (s : Namespaces × List StateNode) : Prop where
  groups : ∀ group ∈ s.1, group.2 ≠ [] ∧ ∀ e ∈ group.2, FromModel models group.1 e
  items : ∀ x ∈ s.2, ItemFrom models path address x

variable {models : List Model} {path : List (List Char)} {address : List Char}

/-- An entry is added to a group that is there, or begins one. -/
theorem groups_addEntry {P : List Char → Entry → Prop} {ns : List Char} {e : Entry} (he : P ns e)
    {namespaces : Namespaces}
    (h : ∀ group ∈ namespaces, group.2 ≠ [] ∧ ∀ e ∈ group.2, P group.1 e) :
  ∀ group ∈ addEntry ns e namespaces, group.2 ≠ [] ∧ ∀ e ∈ group.2, P group.1 e
  := by
  induction namespaces with
  | nil =>
      intro group hgroup
      obtain rfl := List.mem_singleton.mp hgroup
      simpa using he
  | cons first rest ih =>
      obtain ⟨hfirst, hrest⟩ := List.forall_mem_cons.mp h
      obtain ⟨ns', es⟩ := first
      intro group hgroup
      rw [addEntry] at hgroup
      split_ifs at hgroup with hns
      · rcases List.mem_cons.mp hgroup with rfl | hgroup
        · subst hns
          simp only [ne_eq, List.append_eq_nil_iff, List.cons_ne_nil, and_false, not_false_eq_true,
            true_and, List.mem_append, List.mem_singleton]
          rintro e' (he' | rfl)
          · apply hfirst.2 e' he'
          · apply he
        · apply hrest group hgroup
      · rcases List.mem_cons.mp hgroup with rfl | hgroup
        · apply hfirst
        · apply ih hrest group hgroup

/-- A model is placed. -/
theorem Placed.step {s s' : Namespaces × List StateNode} (h : Placed models path address s)
    {m : Model} (hm : m ∈ models) {raw : Binary} (hraw : Hex.decode? m.key = some raw)
    (hs' : placeModel path address s m = some s') :
  Placed models path address s'
  := by
  cases hparts : entryParts raw with
  | some parts =>
      obtain ⟨ns, key⟩ := parts
      obtain rfl := Option.some.inj (hs'.symm.trans (placeModel_of_some path hraw hparts s)).symm
      refine ⟨?_, h.items⟩
      apply groups_addEntry _ h.groups
      exact ⟨m, hm, raw, key, hraw, hparts, rfl, rfl⟩
  | none =>
      have haddr : ∃ hex, bech32AddrToHex address = some hex := by
        have hparse : parseWasmKeyParts m.key = none := by
          rw [parseWasmKeyParts, hexToBytes_eq hraw, hparts, Option.map_none]
        rw [placeModel, hparse] at hs'
        obtain ⟨storeKey, hstoreKey, -⟩ := Option.bind_eq_some_iff.mp hs'
        obtain ⟨hex, hhex, -⟩ := Option.bind_eq_some_iff.mp hstoreKey
        use hex
      obtain ⟨hex, hhex⟩ := haddr
      obtain ⟨payload, hpayload, -⟩ := exists_payload hhex
      obtain rfl :=
        Option.some.inj (hs'.symm.trans (placeModel_of_none path hpayload hraw hparts s)).symm
      refine ⟨h.groups, ?_⟩
      intro x hx
      rcases List.mem_append.mp hx with hx | hx
      · apply h.items x hx
      · obtain rfl := List.mem_singleton.mp hx
        exact ⟨payload, m, hm, raw, hpayload, hraw, hparts, rfl⟩

/-- All models are placed. -/
theorem Placed.all {ms : List Model} (hms : ∀ m ∈ ms, m ∈ models)
    (hhex : ∀ m ∈ models, ∃ raw, Hex.decode? m.key = some raw) {s s' : Namespaces × List StateNode}
    (h : Placed models path address s) (hs' : ms.foldlM (placeModel path address) s = some s') :
  Placed models path address s'
  := by
  induction ms generalizing s with
  | nil =>
      obtain rfl := Option.some.inj hs'
      apply h
  | cons m ms ih =>
      rw [List.foldlM_cons] at hs'
      obtain ⟨s₁, hs₁, hrest⟩ := Option.bind_eq_some_iff.mp hs'
      have hm := hms m List.mem_cons_self
      obtain ⟨raw, hraw⟩ := hhex m hm
      apply ih (fun m' hm' => hms m' (List.mem_cons_of_mem m hm')) (h.step hm hraw hs₁) hrest

/-! ### Contracts -/

section Contract

variable {payload : Binary} (hpath : path = ["wasm".toList, "contracts".toList])
  (htold : ∀ m ∈ models, ∀ payload raw, bech32AddrToHex address = some (Hex.encode payload) →
    Hex.decode? m.key = some raw → EntryTold told address payload m raw)

include hpath htold

/-- An entry in no group says what was told of it. -/
theorem grown_item {x : StateNode} (h : ItemFrom models path address x) :
  Grown told x ∧ x.object.role = .leaf
  := by
  obtain ⟨payload, m, hm, raw, haddr, hraw, hparts, rfl⟩ := h
  apply grown_makeLeaf
  intro key hkey
  obtain rfl := Option.some.inj hkey
  have hkey : Hex.decode? ("03".toList ++ Hex.encode payload ++ m.key)
      = some (storeKey payload raw) := by
    rw [decode?_address_append, hraw, Option.map_some]
  rw [watchKeyBytes_of_decode hkey]
  have hreported := Reported.entry (htold m hm payload raw haddr hraw)
  rw [entryPath, hparts, rekey_of_none hparts] at hreported
  simp only [makeLeaf, hpath]
  exact hreported

/-- An entry in the group of its namespace says what was told of it. -/
theorem grown_entry {ns key : List Char} {e : Entry} (h : FromModel models ns e)
    (haddr : bech32AddrToHex address = some (Hex.encode payload))
    (hkey : wasmStoreKeyForNsEntry address ns e.mapKey = some key) :
  Grown told (makeLeaf "wasm".toList (path ++ [address, ns ++ ['/']]) e.mapKey e.value
      ⟨some "wasm".toList, some key⟩) ∧
    (makeLeaf "wasm".toList (path ++ [address, ns ++ ['/']]) e.mapKey e.value
      ⟨some "wasm".toList, some key⟩).object.role = .leaf
  := by
  obtain ⟨m, hm, raw, mapKey, hraw, hparts, hmapKey, hvalue⟩ := h
  obtain rfl := Option.some.inj (hkey.symm.trans (wasmStoreKeyForNsEntry_eq haddr ns e.mapKey)).symm
  apply grown_makeLeaf
  intro k hk
  obtain rfl := Option.some.inj hk
  rw [nsEntryKey_eq payload (length_encode_lt hparts), watchKeyBytes_encode, hmapKey]
  have hreported := Reported.entry (htold m hm payload raw haddr hraw)
  rw [entryPath, hparts, rekey_of_some hparts] at hreported
  simp only [makeLeaf, hpath, hvalue]
  exact hreported

/-- The folder of a namespace is the group of its entries. -/
theorem grown_group (haddress : address ≠ []) {ns : List Char} {entries : List Entry}
    (hne : entries ≠ []) (hentries : ∀ e ∈ entries, FromModel models ns e) {x : StateNode}
    (hx : namespaceFolder path address (ns, entries) = some x) :
  Grown told x ∧ x.object.role = .group
  := by
  obtain ⟨children, hchildren, hx⟩ := Option.bind_eq_some_iff.mp hx
  obtain rfl := Option.some.inj hx
  obtain ⟨e, rest, rfl⟩ := List.exists_cons_of_ne_nil hne
  obtain ⟨m, hm, raw, mapKey, hraw, hparts, -, -⟩ := hentries e List.mem_cons_self
  have haddr : ∃ hex, bech32AddrToHex address = some hex := by
    rw [List.mapM_cons] at hchildren
    obtain ⟨leaf, hleaf, -⟩ := Option.bind_eq_some_iff.mp hchildren
    obtain ⟨key, hkey, -⟩ := Option.bind_eq_some_iff.mp hleaf
    obtain ⟨hex, hhex, -⟩ := Option.bind_eq_some_iff.mp hkey
    use hex
  obtain ⟨hex, hhex⟩ := haddr
  obtain ⟨payload, hpayload, -⟩ := exists_payload hhex
  have hleaves : ∀ x ∈ children, Grown told x ∧ x.object.role = .leaf := by
    refine forall_of_mapM_some (P := fun x => Grown told x ∧ x.object.role = .leaf) ?_ hchildren
    intro e he x hx
    obtain ⟨key, hkey, hx⟩ := Option.bind_eq_some_iff.mp hx
    obtain rfl := Option.some.inj hx
    apply grown_entry hpath htold (hentries e he) hpayload hkey
  subst hpath
  refine ⟨Grown.node ?_ (fun x hx => (hleaves x hx).1) fun x hx => .inl (hleaves x hx).2, rfl⟩
  refine ⟨address, ns, rfl, rfl, rfl, rfl, rfl, haddress, ?_, payload, m, raw, mapKey, ?_, hparts⟩
  · apply (printable_iff.mp (entryParts_eq_some_iff.mp hparts).1).1
  · apply htold m hm payload raw hpayload hraw

/-- The nodes for the storage of a contract. -/
theorem grown_contractNodes (haddress : address ≠ [])
    (hhex : ∀ m ∈ models, ∃ raw, Hex.decode? m.key = some raw) {children : List StateNode}
    (h : contractNodes path address models = some children) :
  ∀ x ∈ children, Grown told x ∧ (x.object.role = .group ∨ x.object.role = .leaf)
  := by
  obtain ⟨placed, hplaced, h⟩ := Option.bind_eq_some_iff.mp h
  obtain ⟨folders, hfolders, h⟩ := Option.bind_eq_some_iff.mp h
  obtain rfl := Option.some.inj h
  have hall : Placed models path address placed :=
    Placed.all (fun _ hm => hm) hhex ⟨by simp, by simp⟩ hplaced
  intro x hx
  rcases List.mem_append.mp hx with hx | hx
  · refine forall_of_mapM_some (P := fun x => Grown told x ∧
      (x.object.role = .group ∨ x.object.role = .leaf)) ?_ hfolders x hx
    rintro ⟨ns, entries⟩ hgroup y hy
    obtain ⟨hne, hentries⟩ := hall.groups _ hgroup
    obtain ⟨hgrown, hrole⟩ := grown_group hpath htold haddress hne hentries hy
    exact ⟨hgrown, .inl hrole⟩
  · obtain ⟨hgrown, hrole⟩ := grown_item hpath htold (hall.items x hx)
    exact ⟨hgrown, .inr hrole⟩

end Contract

variable (told) in
/-- Nodes tell the keys of entries in hexadecimal. -/
def Hexadecimal : Prop :=
  ∀ url query (models : List Model), told ⟨.models, url, query⟩ models →
    ∀ m ∈ models, ∃ raw, Hex.decode? m.key = some raw

/-- A search for a contract by its address. -/
theorem gives_searchContracts (hhex : Hexadecimal told) {chain : Chain} (hchain : chain ∈ chains)
    {view : StateNode} (hpath : view.path = ["wasm".toList, "contracts".toList])
    (haddress : address ≠ []) :
  Gives told (FoundFits told) (searchContracts chain.rest view address : Rest σ Cmd _)
  := by
  unfold searchContracts
  apply gives_tryCatch
  · apply gives_bind (gives_fetch fun _ h => h)
    intro contract _
    apply gives_bind (gives_fetch fun _ h => h)
    intro models hmodels
    split
    case h_1 result hresult =>
        apply gives_pure
        obtain ⟨children, hchildren, hresult⟩ := Option.bind_eq_some_iff.mp hresult
        obtain rfl := Option.some.inj hresult
        apply grown_contractNodes hpath _ haddress (hhex _ _ models hmodels) hchildren
        intro m hm payload raw haddr hraw
        refine ⟨⟨chain, hchain, models, ?_, hm⟩, haddr, hraw⟩
        exact hmodels
    case h_2 => apply gives_throw
  · exact fun _ => gives_pure foundFits_notFound

end Explorer
