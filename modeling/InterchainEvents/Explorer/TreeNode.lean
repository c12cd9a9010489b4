import InterchainEvents.Explorer.Leaves

/-!
# The watch button of a tree node

The button next to the search field of a folder opens the subscribe modal for the key that was
typed. In the folder of a namespace the key of the entry is put together with a copy of what the
explorer does for the entries that it shows (`fullStoreKey_eq`). Without a typed key the button
does nothing.
-/

namespace TreeNode

open Shared Explorer

/-! ### The copy -/

/-- The hexadecimal text of a byte. -/
def byteToHex (b : UInt8) : List Char :=
  Js.padStart 2 '0' (Nat.toDigits 16 b.toNat)

/-- Encode a string to hex. -/
def toHex (s : List Char) : List Char :=
  (Utf8.encode s).flatMap byteToHex

/-- `indexOf`: the place of a character in a text, or `-1`. -/
def indexOf (text : List Char) (c : Char) : ℤ :=
  if text.idxOf c < text.length then text.idxOf c else -1

/-- Convert groups of five bits to bytes, in an accumulator of 32 bits. -/
def convertBits (acc : BitVec 32) (bits : ℕ) : List ℤ → List UInt8
  | [] => []
  | v :: vs =>
      let acc := acc <<< 5 ||| BitVec.ofInt 32 v
      let bits := bits + 5
      drain acc (bits / 8) bits ++ convertBits acc (bits % 8) vs

/-- The hexadecimal text of the bytes of an address. Characters are not checked here. -/
def bech32ToHex (addr : List Char) : List Char :=
  let data := Written.dataChars (Utf16.encode addr)
  let values := data.map fun c => c.elim (-1) (indexOf Bech32.alphabet)
  (convertBits 0 0 values).flatMap byteToHex

/-- The key of an entry of a map of a contract. -/
def fullStoreKey (contractAddr ns searchInput : List Char) : List Char :=
  let nsHex := toHex ns
  let nsLen := Js.padStart 4 '0' (Nat.toDigits 16 (nsHex.length / 2))
  let mapKeyHex := toHex searchInput
  let addrHex := bech32ToHex contractAddr
  "03".toList ++ addrHex ++ nsLen ++ nsHex ++ mapKeyHex

/-! ### Opening the modal -/

/-- What the subscribe modal is opened with. -/
structure Modal where
  node : StateNode
  preCondition : Option (List Char)
  preValue : Option (List Char)
  preSearchKey : Option (List Char)

/-- The key of the store that the modal subscribes to, in hexadecimal. -/
def Modal.storeKey (modal : Modal) : Option (List Char) :=
  modal.node.storeKey

/-- A node that stands for a key of a contract that is not in the tree. -/
def syntheticNode (node : StateNode) (key storeKey : List Char) : StateNode where
  key := key
  value := none
  moduleName := "wasm".toList
  path := node.path ++ [key]
  hasChildren := false
  children := []
  storeName := some "wasm".toList
  storeKey := some storeKey

/-- `text || undefined`: a text that counts as true. -/
def truthy (text : Option (List Char)) : Option (List Char) :=
  text.filter (· ≠ [])

/-- Subscribe with `Exists`: to the key that was searched for last, if that is known. -/
def openSubscribeExists (node : StateNode) (searchInput : List Char) : Modal :=
  match truthy node.pendingStoreKey with
  | some pendingStoreKey =>
      ⟨syntheticNode node (node.pendingWatchKey.getD searchInput) pendingStoreKey,
        some "Exists".toList, none, none⟩
  | none => ⟨node, some "Exists".toList, none, some searchInput⟩

/-- The button next to the search field: the modal for the key that was typed, if one was. -/
def openSubscribeForSearch (node : StateNode) (searchInput : List Char) : Option Modal :=
  if searchInput = [] then none
  else
    match truthy node.contractAddr, truthy node.ns with
    | some contractAddr, some ns =>
        some ⟨syntheticNode node searchInput (fullStoreKey contractAddr ns searchInput),
          some "Exists".toList, none, none⟩
    | _, _ => some (openSubscribeExists node searchInput)

theorem truthy_some {text : List Char} (h : text ≠ []) :
  truthy (some text) = some text
  := by
  simp [truthy, Option.filter, h]

/-! ### The copy agrees -/

/-- Groups are found like in the original. -/
theorem map_indexOf {data : List (Option Char)} {values : List ℕ}
    (h : data.mapM group = some values) :
  data.map (fun c => c.elim (-1) (indexOf Bech32.alphabet)) = values.map Int.ofNat
  := by
  induction data generalizing values with
  | nil =>
      obtain rfl := Option.some.inj h
      rfl
  | cons c data ih =>
      rw [List.mapM_cons, Option.bind_eq_bind, Option.bind_eq_some_iff] at h
      obtain ⟨v, hv, h⟩ := h
      obtain ⟨vs, hvs, h⟩ := Option.bind_eq_some_iff.mp h
      obtain rfl := Option.some.inj h
      cases c with
      | none => cases hv
      | some c =>
          obtain ⟨hlt, hv⟩ := Option.ite_none_right_eq_some.mp hv
          obtain rfl := Option.some.inj hv
          rw [List.map_cons, List.map_cons, ih hvs, Option.elim_some, indexOf, if_pos hlt]
          rfl

theorem convertBits_map (acc : BitVec 32) (bits : ℕ) (vs : List ℕ) :
  convertBits acc bits (vs.map Int.ofNat) = Explorer.convertBits acc bits vs
  := by
  induction vs generalizing acc bits with
  | nil => rfl
  | cons v vs ih =>
      rw [List.map_cons, convertBits, Explorer.convertBits, ih]
      rfl

/-- The copy decodes the addresses that the original decodes. -/
theorem bech32ToHex_eq {addr hex : List Char} (h : bech32AddrToHex addr = some hex) :
  bech32ToHex addr = hex
  := by
  obtain ⟨values, hvalues, h⟩ := Option.bind_eq_some_iff.mp h
  obtain rfl := Option.some.inj h
  rw [bech32ToHex, map_indexOf hvalues, convertBits_map]
  rfl

/-- **The copy puts together the same key**, wherever the original does. -/
theorem fullStoreKey_eq {contractAddr ns mapKey key : List Char}
    (h : wasmStoreKeyForNsEntry contractAddr ns mapKey = some key) :
  fullStoreKey contractAddr ns mapKey = key
  := by
  obtain ⟨addrHex, haddr, h⟩ := Option.bind_eq_some_iff.mp h
  obtain rfl := Option.some.inj h
  rw [fullStoreKey, bech32ToHex_eq haddr]
  rfl

/-- In the folder of a namespace the modal is opened for the key of the entry. -/
theorem openSubscribeForSearch_eq {node : StateNode} {contractAddr ns searchInput : List Char}
    (hinput : searchInput ≠ []) (haddr : node.contractAddr = some contractAddr)
    (hne : contractAddr ≠ []) (hns : node.ns = some ns) (hns_ne : ns ≠ []) :
  openSubscribeForSearch node searchInput
    = some ⟨syntheticNode node searchInput (fullStoreKey contractAddr ns searchInput),
        some "Exists".toList, none, none⟩
  := by
  rw [openSubscribeForSearch, if_neg hinput, haddr, hns, truthy_some hne, truthy_some hns_ne]

end TreeNode
