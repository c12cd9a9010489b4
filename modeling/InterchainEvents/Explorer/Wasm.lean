import InterchainEvents.Explorer.Form
import InterchainEvents.Explorer.Tree
import InterchainEvents.Text.Bech32

/-!
# The state of a contract in the explorer

The explorer shows the entries of a contract's storage as a tree: entries of a map stand in a
folder for the namespace of the map, all others at the top. Each leaf is given the key under which
the chain stores the entry, for a subscription to watch.

An exception is `none`.
-/

namespace Explorer

/-! ### Keys -/

/-- The hexadecimal text of a byte. -/
def byteToHex (b : UInt8) : List Char :=
  Js.padStart 2 '0' (Nat.toDigits 16 b.toNat)

/-- The hexadecimal text of bytes. -/
def bytesToHex (bytes : List UInt8) : List Char :=
  bytes.flatMap byteToHex

/-- Encode a string to hex. -/
def toHex (str : List Char) : List Char :=
  bytesToHex (Utf8.encode str)

/-- A byte of the accumulator, after a shift. -/
def accByte (acc : BitVec 32) (bits : ℕ) : UInt8 :=
  UInt8.ofNat ((acc.sshiftRight bits).toNat % 256)

/-- The bytes that the inner loop takes from the accumulator: it runs while there are eight bits,
that is `n` times. -/
def drain (acc : BitVec 32) : ℕ → ℕ → List UInt8
  | 0, _ => []
  | n + 1, bits => accByte acc (bits - 8) :: drain acc n (bits - 8)

/-- Convert groups of five bits to bytes. The accumulator is an integer of 32 bits, from which
nothing is removed. -/
def convertBits (acc : BitVec 32) (bits : ℕ) : List ℕ → List UInt8
  | [] => []
  | v :: vs =>
      let acc := acc <<< 5 ||| BitVec.ofNat 32 v
      let bits := bits + 5
      drain acc (bits / 8) bits ++ convertBits acc (bits % 8) vs

namespace Written

/-- `text.lastIndexOf(c)` for a character of one code unit: the place where it comes last, or
`-1`. -/
def lastIndexOf (text : List UInt16) (u : UInt16) : ℤ :=
  text.length - 1 - text.reverse.idxOf u

/-- The characters of an address that are decoded: those after the separator and before the
checksum. An unpaired surrogate is `none`. -/
def dataChars (addr : List UInt16) : List (Option Char) :=
  let sepIdx := lastIndexOf addr 0x31
  -- strip prefix and checksum
  Utf16.decode ((addr.take (addr.length - 6)).drop (sepIdx + 1).toNat)

end Written

/-- The group of five bits that a character of an address stands for. -/
def group : Option Char → Option ℕ
  | some c =>
      let v := Bech32.alphabet.idxOf c
      if v < Bech32.alphabet.length then some v else none
  | none => none

/-- Decode a bech32 address to raw bytes hex. -/
def bech32AddrToHex (addr : List Char) : Option (List Char) := do
  let values ← (Written.dataChars (Utf16.encode addr)).mapM group
  some (bytesToHex (convertBits 0 0 values))

/-- Decode hex string to bytes. -/
def hexToBytes : List Char → List UInt8
  | c :: d :: cs => Js.toUint8 (Js.parseInt [c, d] (some 16)) :: hexToBytes cs
  | _ => []

/-- `/^[\x20-\x7e]+$/` -/
def printable (str : List Char) : Bool :=
  str ≠ [] && str.all fun c => decide (0x20 ≤ c.toNat ∧ c.toNat ≤ 0x7E)

/-- The text of a map key: its own if it is printable, else its bytes in hex. -/
def mapKeyText (keyBytes : List UInt8) : List Char :=
  match Js.textDecodeFatal keyBytes with
  | some mapKey => if printable mapKey then mapKey else "0x".toList ++ bytesToHex keyBytes
  | none => "0x".toList ++ bytesToHex keyBytes

/-- The namespace and the bytes of the map key, if the bytes begin like those of an entry of a map:
with the length of the namespace and a printable namespace. -/
def entryParts : List UInt8 → Option (List Char × List UInt8)
  | b₀ :: b₁ :: bytes =>
      let nsLen := b₀.toNat * 256 + b₁.toNat
      if nsLen = 0 ∨ bytes.length ≤ nsLen then none
      else
        (Js.textDecodeFatal (bytes.take nsLen)).bind fun ns =>
          if printable ns then some (ns, bytes.drop nsLen) else none
  | _ => none

/-- Parse a cw-storage-plus hex key into namespace and map key, if it looks like an entry of a
map. -/
def parseWasmKeyParts (hex : List Char) : Option (List Char × List Char) :=
  (entryParts (hexToBytes hex)).map fun (ns, keyBytes) =>
    (ns, if keyBytes = [] then [] else mapKeyText keyBytes)

/-- Decode a wasm contract state key from hex into a human-readable form. -/
def decodeWasmStateKey (hex : List Char) : List Char :=
  let bytes := hexToBytes hex
  match entryParts bytes with
  | some (ns, keyBytes) =>
      if keyBytes = [] then ns else ns ++ "::".toList ++ mapKeyText keyBytes
  | none =>
      match Js.textDecodeFatal bytes with
      | some str => if printable str then str else "0x".toList ++ hex
      | none => "0x".toList ++ hex

/-- Build the IAVL key for wasm contract storage. -/
def wasmStoreKey (contractAddr storageKeyHex : List Char) : Option (List Char) := do
  some ("03".toList ++ (← bech32AddrToHex contractAddr) ++ storageKeyHex)

/-- Build the full IAVL store key for an entry of a map. -/
def wasmStoreKeyForNsEntry (contractAddr ns mapKey : List Char) : Option (List Char) := do
  let nsHex := toHex ns
  let nsLen := Js.padStart 4 '0' (Nat.toDigits 16 (nsHex.length / 2))
  some ("03".toList ++ (← bech32AddrToHex contractAddr) ++ nsLen ++ nsHex ++ toHex mapKey)

/-! ### The tree -/

/-- An entry of a contract's storage as the REST endpoint gives it: the key in hex, the value in
base64. -/
structure Model where
  key : List Char
  value : List Char

/-- What the REST endpoint tells of a contract. -/
structure ContractInfo where
  label : List Char
  codeId : List Char

/-- An entry of a map, in the folder of its namespace. -/
structure Entry where
  mapKey : List Char
  value : List Char
  rawKeyHex : List Char

/-- The folders for namespaces, in the order in which they came up. -/
abbrev Namespaces : Type := List (List Char × List Entry)

/-- An entry added to the folder of its namespace. -/
def addEntry (ns : List Char) (e : Entry) : Namespaces → Namespaces
  | [] => [(ns, [e])]
  | (ns', es) :: rest =>
      if ns' = ns then (ns', es ++ [e]) :: rest else (ns', es) :: addEntry ns e rest

/-- The text of a value, as it was sent if that is not base64. -/
def Model.decodedValue (m : Model) : List Char :=
  (Js.atob m.value).getD m.value

/-- One entry of the storage, grouped by namespace or shown at the top. -/
def placeModel (path : List (List Char)) (key : List Char) :
    Namespaces × List StateNode → Model → Option (Namespaces × List StateNode)
  | (namespaces, topLevel), m =>
      let top := do
        let storeKey ← wasmStoreKey key m.key
        some (namespaces, topLevel ++ [makeLeaf "wasm".toList (path ++ [key])
          (decodeWasmStateKey m.key) m.decodedValue ⟨some "wasm".toList, some storeKey⟩])
      match parseWasmKeyParts m.key with
      | some (ns, mapKey) =>
          if mapKey = [] then top
          else some (addEntry ns ⟨mapKey, m.decodedValue, m.key⟩ namespaces, topLevel)
      | none => top

/-- The folder of a namespace. -/
def namespaceFolder (path : List (List Char)) (key : List Char) :
    List Char × List Entry → Option StateNode
  | (ns, entries) => do
      let nsFolder := makeFolder "wasm".toList (path ++ [key]) (ns ++ ['/'])
        ⟨true, some ("Watch a new ".toList ++ ns ++ " key...".toList), some "wasm".toList, none⟩
      let children ← entries.mapM fun e => do
        let storeKey ← wasmStoreKeyForNsEntry key ns e.mapKey
        some (makeLeaf "wasm".toList (path ++ [key, ns ++ ['/']]) e.mapKey e.value
          ⟨some "wasm".toList, some storeKey⟩)
      some { nsFolder with children := children, contractAddr := some key, ns := some ns }

/-- The nodes for the storage of a contract. -/
def contractNodes (path : List (List Char)) (key : List Char) (models : List Model) :
    Option (List StateNode) := do
  let (namespaces, topLevel) ← models.foldlM (placeModel path key) ([], [])
  let folders ← namespaces.mapM (namespaceFolder path key)
  some (folders ++ topLevel)

/-- A search in the folder of a namespace: a key that is not there is kept with the node, to be
watched. -/
def searchNamespace (node : StateNode) (contractAddr ns key : List Char) :
    Option (StateNode × SearchResult) :=
  match node.children.find? (·.key = key) with
  | some existing => some (node, ⟨true, existing.value, none⟩)
  | none => do
      let pending ← wasmStoreKeyForNsEntry contractAddr ns key
      some ({ node with pendingWatchKey := some key, pendingStoreKey := some pending },
        ⟨false, none, none⟩)

/-- A search for a contract by its address, `fetched` being what the REST endpoint answers, if it
does. -/
def searchContract (node : StateNode) (key : List Char)
    (fetched : Option (ContractInfo × List Model)) : Option SearchResult := do
  let (contract, models) ← fetched
  let children ← contractNodes node.path key models
  let code := "code ".toList ++ contract.codeId
  let label :=
    if contract.label = [] then code else contract.label ++ " (".toList ++ code ++ ")".toList
  some ⟨true, some label, some children⟩

/-- A search in a folder of the module: the node as the search leaves it, and the answer. -/
def searchWasm (node : StateNode) (key : List Char)
    (fetched : Option (ContractInfo × List Model)) : Option (StateNode × SearchResult) :=
  let contractAddr := node.contractAddr.getD []
  let ns := node.ns.getD []
  if ns ≠ [] ∧ contractAddr ≠ [] then searchNamespace node contractAddr ns key
  else if "contracts".toList ∈ node.path then
    -- What is thrown on the way is caught.
    some (node, (searchContract node key fetched).getD ⟨false, none, none⟩)
  else some (node, ⟨false, none, none⟩)

end Explorer
