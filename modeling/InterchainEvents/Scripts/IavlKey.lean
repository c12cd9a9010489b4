import InterchainEvents.Explorer.StoreKey
import InterchainEvents.Js.Bytes

/-!
# Keys as the scripts build them

The scripts build the key of an entry of a map as bytes: `0x03`, the address of the contract, and
the key in its storage. The length of the namespace is written by shifts
(`cwStoragePlusMapKey_eq`).
-/

namespace Scripts

open Shared Explorer

/-- The bytes that pairs of hexadecimal digits denote. -/
def hexToBytes (hex : List Char) : List UInt8 :=
  Explorer.hexToBytes hex

/-- The bytes of a text. -/
def textToBytes (text : List Char) : List UInt8 :=
  Utf8.encode text

/-- Arrays of bytes as one. -/
def concatBytes (arrays : List (List UInt8)) : List UInt8 :=
  Js.concat arrays

/-- Build the key of an entry of a map from texts: the length of the namespace in two bytes, the
bytes of the namespace and those of the map key. -/
def cwStoragePlusMapKey (ns mapKey : List Char) : List UInt8 :=
  let nsBytes := textToBytes ns
  let keyBytes := textToBytes mapKey
  let lenBytes := [Js.byte ((Js.int32 nsBytes.length).sshiftRight 8 &&& 0xFF#32),
    Js.byte (Js.int32 nsBytes.length &&& 0xFF#32)]
  concatBytes [lenBytes, nsBytes, keyBytes]

/-- The bytes of the address of the attestation registry, in hexadecimal. -/
def attestationRegistryAddrHex : List Char :=
  "6ddcac1383e59acf9591d7edb6f8257bf872e1bdf916ca77cbff057b658d395d".toList

/-- The key of an entry of a map of a contract: `0x03`, the address, and the key in the storage. -/
def iavlKey (contractAddr : List UInt8) (ns mapKey : List Char) : List UInt8 :=
  let storageKey := cwStoragePlusMapKey ns mapKey
  concatBytes [[0x03], contractAddr, storageKey]

/-- Build the key for an attestation. -/
def buildAttestationIavlKey (attestationId : List Char) : List UInt8 :=
  iavlKey (hexToBytes attestationRegistryAddrHex) "attestations".toList attestationId

/-- The hexadecimal text of bytes. -/
def bytesToHex (bytes : List UInt8) : List Char :=
  Explorer.bytesToHex bytes

/-- The scripts write the layout of an entry of a map. -/
theorem cwStoragePlusMapKey_eq {ns : List Char} (hlen : (Utf8.encode ns).length < 65536)
    (mapKey : List Char) :
  cwStoragePlusMapKey ns mapKey = mapEntry (Utf8.encode ns) (Utf8.encode mapKey)
  := by
  have hhigh : (Utf8.encode ns).length / 256 % 256 = (Utf8.encode ns).length / 256 :=
    Nat.mod_eq_of_lt (by omega)
  simp only [cwStoragePlusMapKey, textToBytes, concatBytes, Js.concat_eq_flatten]
  rw [Js.byte_sshiftRight_and (by omega), Js.byte_and (by omega), hhigh, mapEntry, lengthPrefix]
  simp

end Scripts
