import InterchainEvents.Explorer.Page
import InterchainEvents.Explorer.WatchKey

/-!
# What nodes have told of the state

What the explorer shows of the state of a chain is what nodes have told of it. `Reported` says of a
path in the explorer which key of which store it names, and which value a node has told of it. What
a node of the tree is, is read off what never changes of it (`Role`), and `Known` says what nodes
have told of each.
-/

namespace Explorer

open Shared

/-! ### Keys -/

theorem not_break_of_value {c : Char} {n : ℕ} (h : Hex.value c = some n) :
  (c ≠ '\n' ∧ c ≠ '\r') ∧ c.toNat ≠ 0x2028 ∧ c.toNat ≠ 0x2029
  := by
  have hcases := Hex.value_cases h
  refine ⟨⟨?_, ?_⟩, by omega, by omega⟩
  · rintro rfl
    revert hcases
    simp
  · rintro rfl
    revert hcases
    simp

/-- The modal reads the bytes that digits denote, in either case. -/
theorem watchKeyBytes_of_decode {hex : List Char} {bytes : Binary}
    (h : Hex.decode? hex = some bytes) :
  watchKeyBytes (String.ofList hex) = bytes
  := by
  rw [watchKeyBytes, String.toList_ofList]
  induction hex using Hex.decode?.induct generalizing bytes with
  | case1 =>
      obtain rfl := Option.some.inj h
      rfl
  | case2 c => contradiction
  | case3 c d cs ih =>
      rw [Hex.decode?, Option.bind_eq_bind, Option.bind_eq_some_iff] at h
      obtain ⟨m, hm, h⟩ := h
      rw [Option.bind_eq_bind, Option.bind_eq_some_iff] at h
      obtain ⟨n, hn, h⟩ := h
      obtain ⟨rest, hrest, h⟩ := Option.bind_eq_some_iff.mp h
      have hc := not_break_of_value hm
      have hd := not_break_of_value hn
      rw [← Option.some.inj h, ← ih hrest, pairs]
      simp only [hc, hd, decide_false, Bool.or_false, Bool.false_eq_true, if_false, List.map_cons,
        Js.toUint8_parseInt hm hn]

/-- The modal reads the bytes of a text that is written in digits. -/
theorem watchKeyBytes_toHex (text : List Char) :
  watchKeyBytes (String.ofList (toHex text)) = Utf8.encode text
  := by
  rw [toHex, bytesToHex_eq, watchKeyBytes_encode]

/-- A decoded address is written in digits. -/
theorem exists_payload {addr hex : List Char} (h : bech32AddrToHex addr = some hex) :
  ∃ payload, bech32AddrToHex addr = some (Hex.encode payload) ∧ hex = Hex.encode payload
  := by
  obtain ⟨values, -, hhex⟩ := Option.bind_eq_some_iff.mp h
  obtain rfl := Option.some.inj hhex
  use convertBits 0 0 values
  rw [h, bytesToHex_eq]
  exact ⟨rfl, rfl⟩

/-! ### What is told -/

/-- Where an entry of a contract's storage stands below the contract. -/
def entryPath (m : Model) (raw : Binary) : List (List Char) :=
  match entryParts raw with
  | some (ns, key) => [ns ++ ['/'], mapKeyText key]
  | none => [decodeWasmStateKey m.key]

section Told

variable (told : (req : Request) → req.Answer → Prop)

/-- A node of one of the chains has told of an entry of a contract's storage, whose key is `raw`. -/
structure EntryTold (address : List Char) (payload : Binary) (m : Model) (raw : Binary) : Prop where
  told : ∃ chain ∈ chains, ∃ models,
    told ⟨.models, chain.rest ++ "/cosmwasm/wasm/v1/contract/".toList ++ address ++ "/state".toList,
      [("pagination.limit".toList, "100".toList)]⟩ models ∧ m ∈ models
  address : bech32AddrToHex address = some (Hex.encode payload)
  key : Hex.decode? m.key = some raw

/-- A path in the explorer names a key of a store, of which a node has told this value. An entry of
a contract is named by the parts in which its key is shown, and its key is put together of them; a
key that was typed for a namespace, of which an entry was told, has no value. -/
inductive Reported : List (List Char) → List Char → Binary → Option (List Char) → Prop
  | supply {chain : Chain} {query : List (List Char × List Char)} {res : Listing Coin}
      {coin : Coin} : chain ∈ chains →
      told ⟨.supply, chain.rest ++ "/cosmos/bank/v1beta1/supply".toList, query⟩ res →
      coin ∈ res.items.getD [] →
      Reported ["bank".toList, "supply".toList, coin.denom] "bank".toList
        (Utf8.encode ("supply/".toList ++ coin.denom)) (some coin.amount)
  | balance {chain : Chain} {address : List Char} {res : Option (List Coin)} {coin : Coin} :
      chain ∈ chains →
      told ⟨.balances, chain.rest ++ "/cosmos/bank/v1beta1/balances/".toList ++ address, []⟩ res →
      coin ∈ res.getD [] →
      Reported ["bank".toList, "balances".toList, address, coin.denom] "bank".toList
        (Utf8.encode ("balances/".toList ++ address ++ '/' :: coin.denom)) (some coin.amount)
  | entry {address : List Char} {payload : Binary} {m : Model} {raw : Binary} :
      EntryTold told address payload m raw →
      Reported (["wasm".toList, "contracts".toList, address] ++ entryPath m raw) "wasm".toList
        (storeKey payload (rekey raw)) (some m.decodedValue)
  | typed {address : List Char} {payload : Binary} {m : Model} {raw key : Binary}
      {ns mapKey : List Char} : EntryTold told address payload m raw →
      entryParts raw = some (ns, key) →
      Reported ["wasm".toList, "contracts".toList, address, ns ++ ['/'], mapKey] "wasm".toList
        (entryKey payload ns mapKey) none

/-- If a modal on these data can subscribe, it is to a key that their path names, of which their
value was told. -/
def Says (data : NodeData) : Prop :=
  ∀ key, data.storeKey = some key →
    Reported told data.path (data.storeName.getD data.moduleName)
      (watchKeyBytes (String.ofList key)) data.value

theorem says_of_none {data : NodeData} (h : data.storeKey = none) :
  Says told data
  := by
  intro key hkey
  rw [h] at hkey
  contradiction

end Told

/-! ### Roles -/

/-- What a node of the page is: a module, a folder of a module, the group of the entries of a
namespace, a leaf or a placeholder. -/
inductive Role where
  | top
  | folder
  | group
  | leaf
  | placeholder
  deriving DecidableEq

/-- What a node is. -/
def Node.role (node : Node) : Role :=
  if node.isLoadMore then .placeholder
  else if node.value.isSome then .leaf
  else if node.path.length = 1 then .top
  else if node.path.length = 2 then .folder
  else .group

/-- A node without its children, as an object. -/
def StateNode.object (x : StateNode) : Node :=
  { toNodeData := x.toNodeData, children := [] }

/-- What stands below what. -/
def Under : Role → Role → Prop
  | .top, r => r = .folder
  | .folder, r => r = .leaf ∨ r = .placeholder
  | .group, r => r = .leaf ∨ r = .placeholder
  | .leaf, _ => False
  | .placeholder, _ => False

/-- What never changes of a node. -/
def Node.fixed (node : Node) : NodeData × Bool :=
  ({ node.toNodeData with
      hasChildren := false
      expanded := false
      loading := false
      nextPageKey := none
      pendingWatchKey := none
      pendingStoreKey := none }, node.isLoadMore)

theorem role_of_fixed {node node' : Node} (h : node'.fixed = node.fixed) :
  node'.role = node.role
  := by
  have hmore : node'.isLoadMore = node.isLoadMore := congrArg Prod.snd h
  have hvalue : node'.value = node.value := congrArg (·.1.value) h
  have hpath : node'.path = node.path := congrArg (·.1.path) h
  rw [Node.role, Node.role, hmore, hvalue, hpath]

/-! ### What is known of a node -/

/-- A node that cannot be opened. -/
structure Shut (node : NodeData) : Prop where
  hasChildren : node.hasChildren = false
  searchable : node.searchable = false
  nextPageKey : node.nextPageKey = none

/-- A folder that is not the group of a namespace. -/
structure Bare (node : NodeData) : Prop where
  storeKey : node.storeKey = none
  contractAddr : node.contractAddr = none
  pendingStoreKey : node.pendingStoreKey = none

/-- The group of the entries of a namespace, of one of which a node has told. -/
structure GroupOf (told : (req : Request) → req.Answer → Prop) (node : NodeData)
    (address ns : List Char) : Prop where
  moduleName : node.moduleName = "wasm".toList
  path : node.path = ["wasm".toList, "contracts".toList, address, ns ++ ['/']]
  storeKey : node.storeKey = none
  contractAddr : node.contractAddr = some address
  ns_eq : node.ns = some ns
  address_ne : address ≠ []
  ns_ne : ns ≠ []
  told : ∃ payload m raw key, EntryTold told address payload m raw ∧
    entryParts raw = some (ns, key)

/-- What is known of a node, by what it is. -/
def Known (told : (req : Request) → req.Answer → Prop) (node : Node) : Prop :=
  match node.role with
  | .top => node.path = [node.moduleName] ∧ Bare node.toNodeData
  | .folder => (∃ key, node.path = [node.moduleName, key]) ∧ Bare node.toNodeData
  | .group => ∃ address ns, GroupOf told node.toNodeData address ns
  | .leaf => Shut node.toNodeData ∧ Says told node.toNodeData
  | .placeholder => Shut node.toNodeData ∧ node.storeKey = none

section Known

variable {told : (req : Request) → req.Answer → Prop} {node : Node}

theorem Known.top (h : Known told node) (hrole : node.role = .top) :
  node.path = [node.moduleName] ∧ Bare node.toNodeData
  := by
  rw [Known, hrole] at h
  exact h

theorem Known.folder (h : Known told node) (hrole : node.role = .folder) :
  (∃ key, node.path = [node.moduleName, key]) ∧ Bare node.toNodeData
  := by
  rw [Known, hrole] at h
  exact h

theorem Known.group (h : Known told node) (hrole : node.role = .group) :
  ∃ address ns, GroupOf told node.toNodeData address ns
  := by
  rw [Known, hrole] at h
  exact h

/-- What is a node, and not a leaf, has no key. -/
theorem Known.storeKey_eq_none (h : Known told node) (hrole : node.role ≠ .leaf) :
  node.storeKey = none
  := by
  cases hr : node.role with
  | top => apply (h.top hr).2.storeKey
  | folder => apply (h.folder hr).2.storeKey
  | group =>
      obtain ⟨address, ns, hgroup⟩ := h.group hr
      apply hgroup.storeKey
  | leaf => contradiction
  | placeholder =>
      rw [Known, hr] at h
      apply h.2

/-- Whatever is known of a node says what was told. -/
theorem Known.said (h : Known told node) :
  Says told node.toNodeData
  := by
  by_cases hr : node.role = .leaf
  · rw [Known, hr] at h
    apply h.2
  · apply says_of_none
    apply h.storeKey_eq_none hr

/-- Leaves and placeholders cannot be opened. -/
theorem Known.shut (h : Known told node) (hrole : node.role = .leaf ∨ node.role = .placeholder) :
  Shut node.toNodeData
  := by
  rcases hrole with hr | hr
  · rw [Known, hr] at h
    apply h.1
  · rw [Known, hr] at h
    apply h.1

/-- A change of what is displayed, of the children or of the next page keeps what is known, if the
node can be opened. -/
theorem Known.change {node' : Node} (h : Known told node) (hfixed : node'.fixed = node.fixed)
    (hopen : node'.toNodeData.hasChildren = node.hasChildren ∧
        node'.nextPageKey = node.nextPageKey ∨
      node.role ≠ .leaf ∧ node.role ≠ .placeholder)
    (hpending : node'.pendingStoreKey = node.pendingStoreKey ∨ node.role = .group) :
  Known told node'
  := by
  have hrole := role_of_fixed hfixed
  have hmodule : node'.moduleName = node.moduleName := congrArg (·.1.moduleName) hfixed
  have hpath : node'.path = node.path := congrArg (·.1.path) hfixed
  have hstoreKey : node'.storeKey = node.storeKey := congrArg (·.1.storeKey) hfixed
  have hcontractAddr : node'.contractAddr = node.contractAddr := congrArg (·.1.contractAddr) hfixed
  have hns : node'.ns = node.ns := congrArg (·.1.ns) hfixed
  have hvalue : node'.value = node.value := congrArg (·.1.value) hfixed
  have hstoreName : node'.storeName = node.storeName := congrArg (·.1.storeName) hfixed
  have hsearchable : node'.searchable = node.searchable := congrArg (·.1.searchable) hfixed
  have hbare (hb : Bare node.toNodeData) (hne : node.role ≠ .group) : Bare node'.toNodeData := by
    refine ⟨hstoreKey.trans hb.storeKey, hcontractAddr.trans hb.contractAddr, ?_⟩
    rw [hpending.resolve_right hne]
    apply hb.pendingStoreKey
  have hshut (hs : Shut node.toNodeData) (hr : node.role = .leaf ∨ node.role = .placeholder) :
      Shut node'.toNodeData := by
    obtain ⟨hhas, hnext⟩ := hopen.resolve_right (by
      rintro ⟨hleaf, hmore⟩
      exact hr.elim hleaf hmore)
    exact ⟨hhas.trans hs.hasChildren, hsearchable.trans hs.searchable, hnext.trans hs.nextPageKey⟩
  cases hr : node.role with
  | top =>
      obtain ⟨hp, hb⟩ := h.top hr
      rw [Known, hrole, hr]
      exact ⟨by rw [hpath, hp, hmodule], hbare hb (by simp [hr])⟩
  | folder =>
      obtain ⟨⟨key, hp⟩, hb⟩ := h.folder hr
      rw [Known, hrole, hr]
      exact ⟨⟨key, by rw [hpath, hp, hmodule]⟩, hbare hb (by simp [hr])⟩
  | group =>
      obtain ⟨address, ns, hgroup⟩ := h.group hr
      rw [Known, hrole, hr]
      exact ⟨address, ns, hmodule.trans hgroup.moduleName, hpath.trans hgroup.path,
        hstoreKey.trans hgroup.storeKey, hcontractAddr.trans hgroup.contractAddr,
        hns.trans hgroup.ns_eq, hgroup.address_ne, hgroup.ns_ne, hgroup.told⟩
  | leaf =>
      rw [Known, hrole, hr]
      use hshut (h.shut (.inl hr)) (.inl hr)
      intro key hkey
      rw [hpath, hvalue, hstoreName, hmodule]
      apply h.said key (hstoreKey.symm.trans hkey)
  | placeholder =>
      rw [Known, hrole, hr]
      use hshut (h.shut (.inr hr)) (.inr hr)
      rw [hstoreKey]
      apply h.storeKey_eq_none (by simp [hr])

end Known

end Explorer
