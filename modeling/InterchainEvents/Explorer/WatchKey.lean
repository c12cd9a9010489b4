import InterchainEvents.Explorer.Subscribe
import InterchainEvents.Explorer.TreeNode
import InterchainEvents.Scripts.IavlKey
import InterchainEvents.Watcher.Submit

/-!
# The way of a key

The key of an entry of a map is put together in three places: in the explorer for the entries it
shows, in its watch button, and in the scripts. All three write the same key, from which address,
namespace and map key can be told, and the key goes unchanged through the modal, the contract and
the watcher (`watchKey_pipeline`). Only without a map key does the watch button do nothing
(`no_key_without_mapKey`).
-/

namespace Explorer

open Shared

/-! ### The layout -/

/-- The key of an entry of a map of a contract: `0x03`, the address, the length of the namespace in
two bytes, the namespace and the map key. -/
def entryKey (payload : Binary) (ns mapKey : List Char) : Binary :=
  storeKey payload (mapEntry (Utf8.encode ns) (Utf8.encode mapKey))

/-- Address, namespace and map key can be told from a key. -/
theorem entryKey_injective {payload payload' : Binary} {ns ns' mapKey mapKey' : List Char}
    (hpayload : payload.length = payload'.length) (hns : (Utf8.encode ns).length < 65536)
    (hns' : (Utf8.encode ns').length < 65536)
    (h : entryKey payload ns mapKey = entryKey payload' ns' mapKey') :
  payload = payload' ∧ ns = ns' ∧ mapKey = mapKey'
  := by
  obtain ⟨rfl, hentry⟩ := List.append_inj (List.cons.inj h).2 hpayload
  obtain ⟨hns_eq, hkey_eq⟩ := mapEntry_injective hns hns' hentry
  use rfl, Utf8.encode_injective hns_eq, Utf8.encode_injective hkey_eq

/-- The scripts write the layout. -/
theorem iavlKey_eq {ns : List Char} (hlen : (Utf8.encode ns).length < 65536) (payload : Binary)
    (mapKey : List Char) :
  Scripts.iavlKey payload ns mapKey = entryKey payload ns mapKey
  := by
  rw [Scripts.iavlKey, Scripts.concatBytes, Js.concat_eq_flatten,
    Scripts.cwStoragePlusMapKey_eq hlen, entryKey, storeKey]
  simp

/-! ### Through the modal -/

theorem pairs_byte_append (b : UInt8) (cs : List Char) :
  pairs (Hex.byte b ++ cs) = Hex.byte b :: pairs cs
  := by
  have hbreaks : ∀ n < 16, (Nat.digitChar n ≠ '\n' ∧ Nat.digitChar n ≠ '\r') ∧
      (Nat.digitChar n).toNat ≠ 0x2028 ∧ (Nat.digitChar n).toNat ≠ 0x2029 := by decide
  have hb := b.toNat_lt
  have hhigh := hbreaks (b.toNat / 16) (by omega)
  have hlow := hbreaks (b.toNat % 16) (by omega)
  rw [Hex.byte, List.cons_append, List.cons_append, List.nil_append, pairs]
  simp [hhigh, hlow]

/-- The modal reads the bytes that a text of digits was written for. -/
theorem watchKeyBytes_encode (bytes : Binary) :
  watchKeyBytes (String.ofList (Hex.encode bytes)) = bytes
  := by
  rw [watchKeyBytes, String.toList_ofList]
  induction bytes with
  | nil => rfl
  | cons b bytes ih =>
      have hb := b.toNat_lt
      have hbyte : Js.toUint8 (Js.parseInt (Hex.byte b) (some 16)) = b := by
        rw [Hex.byte, Js.toUint8_parseInt (Hex.value_digitChar _ (by omega))
          (Hex.value_digitChar _ (by omega)), Nat.div_add_mod, UInt8.ofNat_toNat]
      rw [Hex.encode_cons, pairs_byte_append, List.map_cons, hbyte, ih]

/-- A key goes from the modal through the contract to the watcher: where a form with its
hexadecimal text makes the contract store a subscription, that has the bytes of the key, and the
watcher asks for the text again. -/
def GoesThrough (lib : Hub.Libraries) (hex : List Char) (key : Binary) : Prop :=
  ∀ (form : Form) (msg : SubscribeMsg) (call : Hub.ExecuteMsg) (env : Hub.Env)
    (info : Hub.MessageInfo) (s s' : Hub.Storage) (r : Option (Platform.SubMsg Hub.Callback)),
    form.storeKey = some (String.ofList hex) → handleSubmit true form = .ok msg →
    readSubscribe msg = some call →
    (Hub.contract lib).execute env ⟨info, call⟩ s = (.ok r, s') →
    ∃ sub bytes, s'.load s.nextId = some sub ∧ sub.watchKey = key ∧
      Watcher.fromBase64 (Watcher.wire sub).watchKey = some bytes ∧ bytes = key ∧
      Watcher.bytesToHex bytes = hex

theorem watchKey_of_handleSubmit {connected : Bool} {form : Form} {msg : SubscribeMsg}
    (h : handleSubmit connected form = .ok msg) :
  msg.watchKey = toBase64 (watchKeyBytes (form.storeKey.getD ""))
  := by
  simp only [handleSubmit] at h
  split_ifs at h
  split at h
  · cases h
  · obtain rfl := Except.ok.inj h
    rfl

theorem goesThrough_encode (lib : Hub.Libraries) (key : Binary) :
  GoesThrough lib (Hex.encode key) key
  := by
  intro form msg call env info s s' r hkey hsubmit hread hexecute
  have hwatch : ofBase64 msg.watchKey = some key := by
    rw [watchKey_of_handleSubmit hsubmit, hkey, Option.getD_some, watchKeyBytes_encode,
      ofBase64_toBase64]
  simp only [readSubscribe, hwatch, Option.bind_eq_bind, Option.bind_some,
    Option.bind_eq_some_iff] at hread
  obtain ⟨condition, -, callbackMsg, -, blocks, -, hcall⟩ := hread
  obtain rfl := Option.some.inj hcall
  cases Hub.contract_execute_ok hexecute with
  | triggered hmsg => cases hmsg
  | created hmsg =>
      cases hmsg
      refine ⟨_, key, (Hub.Storage.load_create _ _ _).trans (if_pos rfl), rfl, ?_, rfl,
        bytesToHex_eq key⟩
      apply Watcher.fromBase64_toBase64 key

/-! ### All three places -/

/-- **One key.** For a contract with an address of 32 bytes and a namespace of 1 to 65535 bytes: the
explorer, the copy in its watch button and the scripts write the same key for any map key, the
layout of an entry of a map. The watch button opens the modal for that key when a map key is
typed, and does nothing otherwise. The key goes through the modal, the contract and the watcher.
Different addresses, namespaces or map keys have different keys. -/
theorem watchKey_pipeline (lib : Hub.Libraries) :
  (∀ (hrp : List Char) (payload : Binary) (checksum ns mapKey : List Char),
    payload.length = 32 → checksum.length = 6 → (∀ c ∈ checksum, c ∈ Bech32.alphabet) →
    1 ≤ (Utf8.encode ns).length → (Utf8.encode ns).length ≤ 65535 →
      ∃ hex, Hex.decode? hex = some (entryKey payload ns mapKey) ∧
        wasmStoreKeyForNsEntry (Bech32.address hrp payload checksum) ns mapKey = some hex ∧
        TreeNode.fullStoreKey (Bech32.address hrp payload checksum) ns mapKey = hex ∧
        (∀ node : StateNode, node.contractAddr = some (Bech32.address hrp payload checksum) →
          node.ns = some ns → mapKey ≠ [] →
          ∃ modal, TreeNode.openSubscribeForSearch node mapKey = some modal ∧
            modal.storeKey = some hex) ∧
        Scripts.iavlKey payload ns mapKey = entryKey payload ns mapKey ∧
        Scripts.bytesToHex (Scripts.iavlKey payload ns mapKey) = hex ∧
        GoesThrough lib hex (entryKey payload ns mapKey)) ∧
    ∀ (payload payload' : Binary) (ns ns' mapKey mapKey' : List Char),
      payload.length = 32 → payload'.length = 32 →
      (Utf8.encode ns).length ≤ 65535 → (Utf8.encode ns').length ≤ 65535 →
      entryKey payload ns mapKey = entryKey payload' ns' mapKey' →
        payload = payload' ∧ ns = ns' ∧ mapKey = mapKey'
  := by
  constructor
  · intro hrp payload checksum ns mapKey hpayload hlength hchecksum hpos hlen
    have hlt : (Utf8.encode ns).length < 65536 := by omega
    have hns : ns ≠ [] := by
      rintro rfl
      contradiction
    have haddr := bech32AddrToHex_address hrp payload hlength hchecksum
    have hkey : wasmStoreKeyForNsEntry (Bech32.address hrp payload checksum) ns mapKey
        = some (Hex.encode (entryKey payload ns mapKey)) := by
      rw [wasmStoreKeyForNsEntry_eq haddr, nsEntryKey_eq payload hlt]
      rfl
    refine ⟨_, Hex.decode?_encode _, hkey, TreeNode.fullStoreKey_eq hkey, ?_, iavlKey_eq hlt _ _,
      ?_, goesThrough_encode lib _⟩
    · intro node hnode hnode_ns hmapKey
      have hne : Bech32.address hrp payload checksum ≠ [] := by simp [Bech32.address]
      refine ⟨_, TreeNode.openSubscribeForSearch_eq hmapKey hnode hne hnode_ns hns, ?_⟩
      rw [TreeNode.fullStoreKey_eq hkey]
      rfl
    · rw [iavlKey_eq hlt]
      apply bytesToHex_eq
  · intro payload payload' ns ns' mapKey mapKey' hpayload hpayload' hns hns' h
    apply entryKey_injective (hpayload.trans hpayload'.symm) (by omega) (by omega) h

/-! ### A folder -/

/-- The address of a contract. -/
def sampleAddress : List Char :=
  Bech32.address "neutron".toList sampleBytes sampleChecksum

/-- The folder of the attestations of that contract. -/
def attestationsFolder : StateNode where
  toNodeData := {
    key := "attestations/".toList
    value := none
    moduleName := "wasm".toList
    path := ["wasm".toList, "contracts".toList, sampleAddress, "attestations/".toList]
    hasChildren := true
    searchable := true
    contractAddr := some sampleAddress
    ns := some "attestations".toList }
  children := []

/-- The key of the attestation `kyc`. -/
def sampleKey : Binary :=
  entryKey sampleBytes "attestations".toList "kyc".toList

/-- A form for that key. -/
def sampleKeyForm : Form :=
  { sampleForm with storeKey := some (String.ofList (Hex.encode sampleKey)), condition := .exists }

/-- What the contract reads of that form. -/
def sampleKeyCall : Hub.ExecuteMsg :=
  .subscribe "07-tendermint-1119" ["wasm"] sampleKey .exists "cosmos1callback"
    (utf8 "\x7b\"custom_action\":\x7b\x7d\x7d") none

theorem readSubscribe_sampleKeyForm :
  ∃ msg, handleSubmit true sampleKeyForm = .ok msg ∧ readSubscribe msg = some sampleKeyCall
  := by
  have hready : Ready sampleKeyForm := ⟨by decide, by decide +kernel, by decide⟩
  have hmsg : ∃ s, Js.btoa sampleKeyForm.callbackMsg.toList = some s ∧
      Base64.decode s = some (utf8 sampleKeyForm.callbackMsg) := ⟨_, rfl, by decide +kernel⟩
  obtain ⟨s, hs, hdecode⟩ := hmsg
  refine ⟨_, (handleSubmit_ok_iff hready).mpr ⟨s, hs, rfl⟩, ?_⟩
  apply readSubscribe_iff.mpr
  refine ⟨rfl, rfl, ?_, rfl, rfl, ?_, rfl⟩
  · rw [subscribeMsg, ofBase64_toBase64]
    rw [show sampleKeyForm.storeKey.getD "" = String.ofList (Hex.encode sampleKey) from rfl,
      watchKeyBytes_encode]
  · rw [subscribeMsg, ofBase64, String.toList_ofList]
    apply hdecode

theorem watchKey_pipeline_sample :
  (∃ modal, TreeNode.openSubscribeForSearch attestationsFolder "kyc".toList = some modal ∧
    modal.storeKey.bind Hex.decode? = some sampleKey) ∧
    ∃ sub, ((Hub.contract .sample).execute ⟨10⟩ ⟨⟨"alice"⟩, sampleKeyCall⟩ .initial).2.load 1
        = some sub ∧ sub.watchKey = sampleKey
  := by
  obtain ⟨hex, hhex, hkey, -, hmodal, -, hhex', hthrough⟩ := (watchKey_pipeline .sample).1
    "neutron".toList sampleBytes sampleChecksum "attestations".toList "kyc".toList (by decide)
    (by decide) sampleChecksum_alphabet (by decide) (by decide)
  obtain ⟨modal, hopen, hstore⟩ := hmodal attestationsFolder rfl rfl (by decide)
  obtain ⟨msg, hsubmit, hread⟩ := readSubscribe_sampleKeyForm
  obtain rfl : hex = Hex.encode sampleKey := by
    rw [← hhex', Scripts.bytesToHex, bytesToHex_eq, iavlKey_eq (by decide)]
    rfl
  constructor
  · refine ⟨modal, hopen, ?_⟩
    rw [hstore, Option.bind_some, hhex, sampleKey]
  · have hexecute : ((Hub.contract .sample).execute ⟨10⟩ ⟨⟨"alice"⟩, sampleKeyCall⟩
        .initial).1 = .ok none := rfl
    obtain ⟨sub, -, hload, hwatch, -⟩ :=
      hthrough sampleKeyForm msg sampleKeyCall ⟨10⟩ ⟨"alice"⟩ .initial _ none rfl hsubmit hread
        (Prod.ext hexecute rfl)
    exact ⟨sub, hload, hwatch⟩

/-- Without a map key the explorer and the scripts write a key, but the watch button does not. -/
theorem no_key_without_mapKey :
  wasmStoreKeyForNsEntry sampleAddress "attestations".toList []
      = some (Hex.encode (entryKey sampleBytes "attestations".toList [])) ∧
    Scripts.iavlKey sampleBytes "attestations".toList []
      = entryKey sampleBytes "attestations".toList [] ∧
    attestationsFolder.contractAddr = some sampleAddress ∧
    attestationsFolder.ns = some "attestations".toList ∧
    TreeNode.openSubscribeForSearch attestationsFolder [] = none
  := by
  have hlt : (Utf8.encode "attestations".toList).length < 65536 := by decide
  have haddr : bech32AddrToHex sampleAddress = some (Hex.encode sampleBytes) :=
    bech32AddrToHex_address _ _ (by decide) sampleChecksum_alphabet
  refine ⟨?_, iavlKey_eq hlt _ _, rfl, rfl, rfl⟩
  rw [wasmStoreKeyForNsEntry_eq haddr, nsEntryKey_eq sampleBytes hlt]
  rfl

end Explorer
