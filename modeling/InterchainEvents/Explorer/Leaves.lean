import InterchainEvents.Explorer.StoreKey

/-!
# The leaves of a contract's tree

Every entry of a contract's storage has one leaf in the tree that the explorer builds, with the
value of the entry, under the key that the explorer puts together (`leaves_contractNodes`). So
the leaves stand for the entries exactly when every key is put together as it was
(`leaves_iff`).
-/

namespace Explorer

open Shared

/-! ### Leaves -/

/-- What a leaf stands for: the bytes that its key denotes, and its value. -/
def shown (leaf : NodeData) : Option Binary × Option (List Char) :=
  (leaf.storeKey.bind Hex.decode?, leaf.value)

/-- The key under which the chain stores an entry: `0x03`, the address of the contract and the key
in its storage. -/
def storeKey (payload raw : Binary) : Binary :=
  0x03 :: (payload ++ raw)

/-- What the leaf of a model should stand for. -/
def entryOf (payload : Binary) (m : Model) : Option Binary × Option (List Char) :=
  ((Hex.decode? m.key).map (storeKey payload), some m.decodedValue)

/-- What the leaf of a model stands for: its key is put together again. -/
def leafOf (payload : Binary) (m : Model) : Option Binary × Option (List Char) :=
  ((Hex.decode? m.key).map fun raw => storeKey payload (rekey raw), some m.decodedValue)

/-! ### Keys of leaves -/

section Address

variable {addr : List Char} {payload : Binary}

/-- The key text of an entry of a map. -/
def nsEntryKey (payload : Binary) (ns mapKey : List Char) : List Char :=
  "03".toList ++ Hex.encode payload
    ++ Js.padStart 4 '0' (Nat.toDigits 16 ((toHex ns).length / 2)) ++ toHex ns ++ toHex mapKey

theorem wasmStoreKeyForNsEntry_eq (haddr : bech32AddrToHex addr = some (Hex.encode payload))
    (ns mapKey : List Char) :
  wasmStoreKeyForNsEntry addr ns mapKey = some (nsEntryKey payload ns mapKey)
  := by
  rw [wasmStoreKeyForNsEntry, haddr]
  rfl

theorem wasmStoreKey_eq (haddr : bech32AddrToHex addr = some (Hex.encode payload))
    (hex : List Char) :
  wasmStoreKey addr hex = some ("03".toList ++ Hex.encode payload ++ hex)
  := by
  rw [wasmStoreKey, haddr]
  rfl

theorem decode?_address_append (payload : Binary) (hex : List Char) :
  Hex.decode? ("03".toList ++ Hex.encode payload ++ hex)
    = (Hex.decode? hex).map (storeKey payload)
  := by
  have hstart : "03".toList ++ Hex.encode payload = Hex.encode (0x03 :: payload) := rfl
  rw [hstart, Hex.decode?_encode_append]
  rfl

/-- The key text of an entry of a map is that of the layout of such entries. -/
theorem nsEntryKey_eq (payload : Binary) {ns : List Char}
    (hlen : (Utf8.encode ns).length < 65536) (mapKey : List Char) :
  nsEntryKey payload ns mapKey
    = Hex.encode (storeKey payload (mapEntry (Utf8.encode ns) (Utf8.encode mapKey)))
  := by
  have hstart : "03".toList ++ Hex.encode payload = Hex.encode (0x03 :: payload) := rfl
  have hhalf : (toHex ns).length / 2 = (Utf8.encode ns).length := by
    rw [toHex, bytesToHex_eq, Hex.length_encode]
    omega
  rw [nsEntryKey, hhalf, padStart_toDigits hlen, toHex, toHex, bytesToHex_eq, bytesToHex_eq,
    hstart, ← Hex.encode_append, ← Hex.encode_append, ← Hex.encode_append]
  rw [storeKey, mapEntry, lengthPrefix]
  simp

/-- The key text of an entry of a map denotes the layout of such entries. -/
theorem decode?_nsEntryKey (payload : Binary) {ns : List Char}
    (hlen : (Utf8.encode ns).length < 65536) (mapKey : List Char) :
  Hex.decode? (nsEntryKey payload ns mapKey)
    = some (storeKey payload (mapEntry (Utf8.encode ns) (Utf8.encode mapKey)))
  := by
  rw [nsEntryKey_eq payload hlen, Hex.decode?_encode]

end Address

/-! ### Placing the entries -/

section Placing

variable (path : List (List Char)) {addr : List Char} {payload : Binary}

/-- What the entries of folders stand for. -/
def shownEntries (payload : Binary) (namespaces : Namespaces) :
    List (Option Binary × Option (List Char)) :=
  namespaces.flatMap fun (ns, entries) =>
    entries.map fun e => (Hex.decode? (nsEntryKey payload ns e.mapKey), some e.value)

/-- What the nodes built so far stand for. -/
def placed (payload : Binary) (s : Namespaces × List StateNode) :
    List (Option Binary × Option (List Char)) :=
  shownEntries payload s.1 ++ (leavesOf s.2).map shown

theorem shownEntries_addEntry (payload : Binary) (ns : List Char) (e : Entry)
    (namespaces : Namespaces) :
  (shownEntries payload (addEntry ns e namespaces)).Perm
    ((Hex.decode? (nsEntryKey payload ns e.mapKey), some e.value)
      :: shownEntries payload namespaces)
  := by
  induction namespaces with
  | nil => simp [addEntry, shownEntries]
  | cons group rest ih =>
      obtain ⟨ns', entries⟩ := group
      rw [addEntry]
      split_ifs with hns
      · subst hns
        simp only [shownEntries, List.flatMap_cons, List.map_append, List.map_cons, List.map_nil,
          List.append_assoc, List.singleton_append]
        apply List.perm_middle
      · simp only [shownEntries, List.flatMap_cons] at ih ⊢
        apply (ih.append_left _).trans
        apply List.perm_middle

/-- An entry of a map is placed in the folder of its namespace. -/
theorem placeModel_of_some {m : Model} {raw key : Binary} {ns : List Char}
    (hm : Hex.decode? m.key = some raw) (h : entryParts raw = some (ns, key))
    (s : Namespaces × List StateNode) :
  placeModel path addr s m
    = some (addEntry ns ⟨mapKeyText key, m.decodedValue, m.key⟩ s.1, s.2)
  := by
  obtain ⟨-, -, -, -, hkey, -⟩ := entryParts_eq_some_iff.mp h
  have htext : mapKeyText key ≠ [] := (printable_iff.mp (printable_mapKeyText key)).1
  have hparts : parseWasmKeyParts m.key = some (ns, mapKeyText key) := by
    rw [parseWasmKeyParts, hexToBytes_eq hm, h, Option.map_some]
    dsimp only
    rw [if_neg hkey]
  rw [placeModel, hparts]
  simp only [if_neg htext]

/-- Any other entry is placed at the top. -/
theorem placeModel_of_none (haddr : bech32AddrToHex addr = some (Hex.encode payload)) {m : Model}
    {raw : Binary} (hm : Hex.decode? m.key = some raw) (h : entryParts raw = none)
    (s : Namespaces × List StateNode) :
  placeModel path addr s m
    = some (s.1, s.2 ++ [makeLeaf "wasm".toList (path ++ [addr]) (decodeWasmStateKey m.key)
        m.decodedValue ⟨some "wasm".toList, some ("03".toList ++ Hex.encode payload ++ m.key)⟩])
  := by
  have hparts : parseWasmKeyParts m.key = none := by
    rw [parseWasmKeyParts, hexToBytes_eq hm, h, Option.map_none]
  rw [placeModel, hparts, wasmStoreKey_eq haddr]
  rfl

/-- One entry is placed under the key put together. -/
theorem placeModel_perm (haddr : bech32AddrToHex addr = some (Hex.encode payload)) {m : Model}
    {raw : Binary} (hm : Hex.decode? m.key = some raw) (s : Namespaces × List StateNode) :
  ∃ s', placeModel path addr s m = some s' ∧
    (placed payload s').Perm (leafOf payload m :: placed payload s)
  := by
  cases h : entryParts raw with
  | some parts =>
      obtain ⟨ns, key⟩ := parts
      refine ⟨_, placeModel_of_some path hm h s, ?_⟩
      have hleaf : (Hex.decode? (nsEntryKey payload ns (mapKeyText key)), some m.decodedValue)
          = leafOf payload m := by
        rw [decode?_nsEntryKey payload (length_encode_lt h), leafOf, hm, Option.map_some,
          rekey_of_some h]
      rw [← hleaf]
      apply (shownEntries_addEntry payload ns _ s.1).append_right
  | none =>
      refine ⟨_, placeModel_of_none path haddr hm h s, ?_⟩
      have hleaf : (Hex.decode? ("03".toList ++ Hex.encode payload ++ m.key), some m.decodedValue)
          = leafOf payload m := by
        rw [decode?_address_append, leafOf, hm, Option.map_some, Option.map_some, rekey_of_none h]
      rw [← hleaf, placed, placed, leavesOf_append, List.map_append, ← List.append_assoc]
      apply List.perm_append_singleton

/-- All entries are placed under the keys put together. -/
theorem placeModels_perm (haddr : bech32AddrToHex addr = some (Hex.encode payload))
    {models : List Model} (hmodels : ∀ m ∈ models, ∃ raw, Hex.decode? m.key = some raw)
    (s : Namespaces × List StateNode) :
  ∃ s', models.foldlM (placeModel path addr) s = some s' ∧
    (placed payload s').Perm (models.map (leafOf payload) ++ placed payload s)
  := by
  induction models generalizing s with
  | nil =>
      use s
      simp
  | cons m models ih =>
      obtain ⟨raw, hm⟩ := hmodels m List.mem_cons_self
      obtain ⟨s₁, hs₁, hperm₁⟩ := placeModel_perm path haddr hm s
      obtain ⟨s₂, hs₂, hperm₂⟩ := ih (fun m' hm' => hmodels m' (List.mem_cons_of_mem m hm')) s₁
      use s₂
      constructor
      · rw [List.foldlM_cons, hs₁]
        apply hs₂
      · apply hperm₂.trans
        apply (hperm₁.append_left _).trans
        rw [List.map_cons, List.cons_append]
        apply List.perm_middle

/-- The folder of a namespace can be built, and shows the entries of the namespace. -/
theorem namespaceFolder_eq (haddr : bech32AddrToHex addr = some (Hex.encode payload))
    (ns : List Char) (entries : List Entry) :
  ∃ node, namespaceFolder path addr (ns, entries) = some node ∧
    (leaves node).map shown = shownEntries payload [(ns, entries)]
  := by
  have hchildren : (entries.mapM fun e => do
      let storeKey ← wasmStoreKeyForNsEntry addr ns e.mapKey
      some (makeLeaf "wasm".toList (path ++ [addr, ns ++ ['/']]) e.mapKey e.value
        ⟨some "wasm".toList, some storeKey⟩))
      = some (entries.map fun e => makeLeaf "wasm".toList (path ++ [addr, ns ++ ['/']]) e.mapKey
          e.value ⟨some "wasm".toList, some (nsEntryKey payload ns e.mapKey)⟩) := by
    apply mapM_eq_some
    intro e _
    rw [wasmStoreKeyForNsEntry_eq haddr]
    rfl
  rw [namespaceFolder, hchildren]
  refine ⟨_, rfl, ?_⟩
  rw [leaves_of_hasChildren rfl, leavesOf_map]
  simp only [leaves_makeLeaf, List.map_flatMap, List.map_cons, List.map_nil, shownEntries,
    List.flatMap_cons, List.flatMap_nil, List.append_nil]
  rw [← List.map_eq_flatMap]
  rfl

/-- The folders can be built, and show the entries. -/
theorem folders_eq (haddr : bech32AddrToHex addr = some (Hex.encode payload))
    (namespaces : Namespaces) :
  ∃ folders, namespaces.mapM (namespaceFolder path addr) = some folders ∧
    (leavesOf folders).map shown = shownEntries payload namespaces
  := by
  induction namespaces with
  | nil => exact ⟨[], rfl, rfl⟩
  | cons group rest ih =>
      obtain ⟨node, hnode, hleaves⟩ := namespaceFolder_eq path haddr group.1 group.2
      obtain ⟨folders, hfolders, hrest⟩ := ih
      use node :: folders
      constructor
      · rw [List.mapM_cons, hnode, hfolders]
        rfl
      · rw [leavesOf, List.map_append, hleaves, hrest]
        simp [shownEntries]

/-- Every entry of the storage has one leaf, with its value, under the key put together. -/
theorem leaves_contractNodes (haddr : bech32AddrToHex addr = some (Hex.encode payload))
    {models : List Model} (hmodels : ∀ m ∈ models, ∃ raw, Hex.decode? m.key = some raw) :
  ∃ children, contractNodes path addr models = some children ∧
    ((leavesOf children).map shown).Perm (models.map (leafOf payload))
  := by
  obtain ⟨s, hs, hperm⟩ := placeModels_perm path haddr hmodels ([], [])
  obtain ⟨folders, hfolders, hleaves⟩ := folders_eq path haddr s.1
  use folders ++ s.2
  constructor
  · rw [contractNodes, hs]
    simp [hfolders]
  · rw [leavesOf_append, List.map_append, hleaves]
    simpa [placed, shownEntries, leavesOf] using hperm

end Placing

/-! ### Keys given back -/

theorem storeKey_injective (payload : Binary) :
  Function.Injective (storeKey payload)
  := by
  intro raw raw' h
  apply List.append_cancel_left (List.cons.inj h).2

/-- The leaves have the keys of the entries exactly when every key is put together as it was: a key
put together is put together as it is. -/
theorem perm_entryOf_iff (payload : Binary) {models : List Model}
    (hmodels : ∀ m ∈ models, ∃ raw, Hex.decode? m.key = some raw) :
  (models.map (leafOf payload)).Perm (models.map (entryOf payload))
    ↔ ∀ m ∈ models, ∀ raw, Hex.decode? m.key = some raw → Kept raw
  := by
  constructor
  · intro hperm m hm raw hraw
    have hentry : entryOf payload m ∈ models.map (leafOf payload) :=
      hperm.mem_iff.mpr (List.mem_map_of_mem hm)
    obtain ⟨m', hm', heq⟩ := List.mem_map.mp hentry
    obtain ⟨raw', hraw'⟩ := hmodels m' hm'
    rw [leafOf, entryOf, hraw, hraw', Prod.mk.injEq, Option.map_some, Option.map_some,
      Option.some.injEq] at heq
    have hrekey := storeKey_injective payload heq.1
    rw [← rekey_eq_self_iff, ← hrekey, rekey_rekey]
  · intro hkept
    have heq : models.map (leafOf payload) = models.map (entryOf payload) := by
      apply List.map_congr_left
      intro m hm
      obtain ⟨raw, hraw⟩ := hmodels m hm
      rw [leafOf, entryOf, hraw, Option.map_some, Option.map_some,
        rekey_eq_self_iff.mpr (hkept m hm raw hraw)]
    rw [heq]

/-! ### The tree of a contract -/

/-- A search has built a tree in which each entry of a contract's storage has exactly one leaf, with
its value, under the key under which the chain stores it. -/
def ShowsEntries (payload : Binary) (models : List Model)
    (searched : Option (StateNode × SearchResult)) : Prop :=
  ∃ node result children, searched = some (node, result) ∧ result.children = some children ∧
    ((leavesOf children).map shown).Perm (models.map (entryOf payload))

section Search

variable {node : StateNode} {payload : Binary} {checksum : List Char} {models : List Model}

/-- A search outside the folders of namespaces is one for a contract. -/
theorem searchWasm_eq (hns : node.ns = none) (hpath : "contracts".toList ∈ node.path)
    (key : List Char) (fetched : Option (ContractInfo × List Model)) :
  searchWasm node key fetched
    = some (node, (searchContract node key fetched).getD ⟨false, none, none⟩)
  := by
  simp only [searchWasm, hns, Option.getD_none, ne_eq, not_true_eq_false, false_and, if_false]
  rw [if_pos hpath]

theorem showsEntries_iff (hns : node.ns = none) (hpath : "contracts".toList ∈ node.path)
    (hrp : List Char) (hlength : checksum.length = 6)
    (hchecksum : ∀ c ∈ checksum, c ∈ Bech32.alphabet)
    (contract : ContractInfo) (hmodels : ∀ m ∈ models, ∃ raw, Hex.decode? m.key = some raw) :
  ShowsEntries payload models
      (searchWasm node (Bech32.address hrp payload checksum) (some (contract, models)))
    ↔ (models.map (leafOf payload)).Perm (models.map (entryOf payload))
  := by
  obtain ⟨children, hchildren, hperm⟩ := leaves_contractNodes node.path
    (bech32AddrToHex_address hrp payload hlength hchecksum) hmodels
  have hsearch : ∃ label, searchContract node (Bech32.address hrp payload checksum)
      (some (contract, models)) = some ⟨true, some label, some children⟩ := by
    simp only [searchContract, Option.bind_eq_bind, Option.bind_some, hchildren, Option.some.injEq,
      SearchResult.mk.injEq, true_and, and_true, exists_eq']
  obtain ⟨label, hsearch⟩ := hsearch
  rw [searchWasm_eq hns hpath, hsearch, Option.getD_some]
  constructor
  · rintro ⟨_, _, children', heq, hchildren', hperm'⟩
    obtain ⟨rfl, rfl⟩ := Prod.mk.inj (Option.some.inj heq)
    obtain rfl := Option.some.inj hchildren'
    apply hperm.symm.trans hperm'
  · intro hentries
    exact ⟨node, _, children, rfl, rfl, hperm.trans hentries⟩

/-- The leaves of the tree of a contract carry the real store keys exactly when every key that reads
as that of an entry of a map has a printable namespace and map key. -/
theorem leaves_iff (hns : node.ns = none) (hpath : "contracts".toList ∈ node.path)
    (hrp : List Char) (hlength : checksum.length = 6)
    (hchecksum : ∀ c ∈ checksum, c ∈ Bech32.alphabet)
    (contract : ContractInfo) (hmodels : ∀ m ∈ models, ∃ raw, Hex.decode? m.key = some raw) :
  ShowsEntries payload models
      (searchWasm node (Bech32.address hrp payload checksum) (some (contract, models)))
    ↔ ∀ m ∈ models, ∀ raw, Hex.decode? m.key = some raw → Kept raw
  := by
  rw [showsEntries_iff hns hpath hrp hlength hchecksum contract hmodels]
  apply perm_entryOf_iff payload hmodels

end Search

/-! ### A contract with a binary map key -/

/-- The folder in which contracts are searched. -/
def contractsFolder : StateNode :=
  makeFolder "wasm".toList ["wasm".toList] "contracts".toList
    ⟨true, some "Enter contract address (neutron1...)".toList, none, none⟩

/-- The bytes of the address of a contract. -/
def sampleBytes : Binary :=
  (List.range 32).map UInt8.ofNat

/-- The last six characters of that address. -/
def sampleChecksum : List Char :=
  "8jevwd".toList

theorem sampleChecksum_alphabet :
  ∀ c ∈ sampleChecksum, c ∈ Bech32.alphabet
  := by
  have hall : sampleChecksum.all fun c => decide (c ∈ Bech32.alphabet) := by decide
  intro c hc
  apply of_decide_eq_true (List.all_eq_true.mp hall c hc)

/-- What the REST endpoint tells of the contract. -/
def sampleContract : ContractInfo :=
  ⟨"hub".toList, "7".toList⟩

/-- An entry of a map from texts: the key is that of `alice` in `admins`. -/
def textEntry : Model :=
  ⟨"000661646d696e73616c696365".toList, "eA==".toList⟩

/-- An entry of a map from numbers: the key is that of `1` in `subscriptions`. -/
def numberEntry : Model :=
  ⟨"000d737562736372697074696f6e730000000000000001".toList, "e30=".toList⟩

/-- The key in the storage of an entry of a map from numbers. -/
def numberKey : Binary :=
  mapEntry (Utf8.encode "subscriptions".toList) [0, 0, 0, 0, 0, 0, 0, 1]

theorem leaves_iff_textEntry :
  ShowsEntries sampleBytes [textEntry] (searchWasm contractsFolder
    (Bech32.address "neutron".toList sampleBytes sampleChecksum)
    (some (sampleContract, [textEntry])))
  := by
  have hdecode : ∀ m ∈ [textEntry], Hex.decode? m.key
      = some (mapEntry (Utf8.encode "admins".toList) (Utf8.encode "alice".toList)) := by
    decide +kernel
  apply (leaves_iff rfl (by decide) _ (by decide) sampleChecksum_alphabet _
    fun m hm => ⟨_, hdecode m hm⟩).mpr
  intro m hm raw hraw
  obtain rfl := Option.some.inj ((hdecode m hm).symm.trans hraw)
  apply rekey_eq_self_iff.mp
  decide +kernel

/-- The key of the entry of a map from numbers is shown by its digits, and put together of these
as a text. -/
theorem numberEntry_lost :
  ¬ ShowsEntries sampleBytes [numberEntry] (searchWasm contractsFolder
      (Bech32.address "neutron".toList sampleBytes sampleChecksum)
      (some (sampleContract, [numberEntry]))) ∧
    Hex.decode? numberEntry.key = some numberKey ∧
    rekey numberKey = mapEntry (Utf8.encode "subscriptions".toList)
      (Utf8.encode "0x0000000000000001".toList)
  := by
  have hdecode : ∀ m ∈ [numberEntry], Hex.decode? m.key = some numberKey := by decide +kernel
  have hrekey : rekey numberKey = mapEntry (Utf8.encode "subscriptions".toList)
      (Utf8.encode "0x0000000000000001".toList) := by decide +kernel
  have hmodels : ∀ m ∈ [numberEntry], ∃ raw, Hex.decode? m.key = some raw :=
    fun m hm => ⟨numberKey, hdecode m hm⟩
  have hmem : numberEntry ∈ [numberEntry] := List.mem_singleton_self _
  refine ⟨?_, hdecode _ hmem, hrekey⟩
  rw [showsEntries_iff rfl (by decide) _ (by decide) sampleChecksum_alphabet _ hmodels,
    perm_entryOf_iff sampleBytes hmodels]
  intro hkept
  have hself := rekey_eq_self_iff.mpr (hkept _ hmem _ (hdecode _ hmem))
  have hlength := congrArg List.length (hrekey.symm.trans hself)
  revert hlength
  decide +kernel

end Explorer
