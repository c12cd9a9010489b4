import InterchainEvents.Explorer.StoreKey

/-!
# The two readings of a state key

The explorer reads the key of an entry of a contract's storage twice: once to group the entry by
namespace and once to name it. Both functions are given here as they are written, and shown to
read a key in the same parts. A key of an item has no length in front, but its first two bytes are
read as one all the same; printable bytes make that length at least `0x2020`, so a short enough
key is not mistaken for that of an entry of a map (`classify_stateKey`).
-/

namespace Explorer

open Shared

/-! ### The functions as they are written -/

/-- The first two bytes as a length. -/
def readLength (bytes : Binary) : ℕ :=
  (bytes.getD 0 0).toNat <<< 8 ||| (bytes.getD 1 0).toNat

namespace Written

/-- Bytes in hex, after `0x`. -/
def hexText (bytes : Binary) : List Char :=
  "0x".toList ++ bytesToHex bytes

/-- `decodeWasmStateKey` as it is written. -/
def decodeWasmStateKey (hex : List Char) : List Char :=
  let bytes := hexToBytes hex
  -- Try Map encoding: first 2 bytes = namespace length
  let returned : Option (List Char) :=
    if 2 ≤ bytes.length then
      let nsLen := readLength bytes
      if 0 < nsLen ∧ nsLen < bytes.length - 2 then
        let nsBytes := (bytes.take (2 + nsLen)).drop 2
        let keyBytes := bytes.drop (2 + nsLen)
        match Js.textDecodeFatal nsBytes with
        | some ns =>
            if printable ns then
              if keyBytes.length = 0 then some ns
              else match Js.textDecodeFatal keyBytes with
                | some mapKey =>
                    if printable mapKey then some (ns ++ "::".toList ++ mapKey)
                    else some (ns ++ "::".toList ++ hexText keyBytes)
                | none => some (ns ++ "::".toList ++ hexText keyBytes)
            else none
        | none => none
      else none
    else none
  match returned with
  | some str => str
  | none =>
      -- Try Item encoding: entire key is a namespace string
      match Js.textDecodeFatal bytes with
      | some str => if printable str then str else "0x".toList ++ hex
      | none => "0x".toList ++ hex

/-- `parseWasmKeyParts` as it is written, an exception being caught as `none`. -/
def parseWasmKeyParts (hex : List Char) : Option (List Char × List Char) := do
  let bytes := hexToBytes hex
  if bytes.length < 2 then none
  else
    let nsLen := readLength bytes
    if nsLen ≤ 0 ∨ bytes.length - 2 ≤ nsLen then none
    else
      let nsBytes := (bytes.take (2 + nsLen)).drop 2
      let ns ← Js.textDecodeFatal nsBytes
      if printable ns = false then none
      else
        let keyBytes := bytes.drop (2 + nsLen)
        if keyBytes.length = 0 then some (ns, [])
        else match Js.textDecodeFatal keyBytes with
          | some mapKey =>
              if printable mapKey then some (ns, mapKey)
              else some (ns, hexText keyBytes)
          | none => some (ns, hexText keyBytes)

end Written

/-! ### They read a key in the same parts -/

theorem readLength_cons (b₀ b₁ : UInt8) (bytes : Binary) :
  readLength (b₀ :: b₁ :: bytes) = b₀.toNat * 256 + b₁.toNat
  := by
  have h₁ : b₁.toNat < 2 ^ 8 := b₁.toNat_lt
  have hor := Nat.shiftLeft_add_eq_or_of_lt h₁ b₀.toNat
  rw [Nat.shiftLeft_eq] at hor
  simp only [readLength, List.getD_cons_zero, List.getD_cons_succ, Nat.shiftLeft_eq, ← hor]

/-- The bytes begin with the length of a namespace that is not empty and is followed by more. -/
def Enough (bytes : Binary) : Prop :=
  2 ≤ bytes.length ∧ 0 < readLength bytes ∧ readLength bytes < bytes.length - 2

theorem entryParts_of_enough {bytes : Binary} (h : Enough bytes) :
  entryParts bytes
    = (Js.textDecodeFatal ((bytes.take (2 + readLength bytes)).drop 2)).bind fun ns =>
        if printable ns then some (ns, bytes.drop (2 + readLength bytes)) else none
  := by
  obtain ⟨hlen, hpos, hlt⟩ := h
  match bytes with
  | b₀ :: b₁ :: bytes =>
      have hn := readLength_cons b₀ b₁ bytes
      rw [List.length_cons, List.length_cons] at hlt
      rw [entryParts, ← hn, if_neg (by omega), Nat.add_comm 2]
      rfl

theorem entryParts_of_not_enough {bytes : Binary} (h : ¬ Enough bytes) :
  entryParts bytes = none
  := by
  match bytes with
  | [] => rfl
  | [b] => rfl
  | b₀ :: b₁ :: bytes =>
      have hn := readLength_cons b₀ b₁ bytes
      unfold Enough at h
      rw [List.length_cons, List.length_cons] at h
      rw [entryParts, ← hn, if_pos (by omega)]

/-- What is read as the map key is never empty. -/
theorem drop_ne_nil_of_enough {bytes : Binary} (h : Enough bytes) :
  bytes.drop (2 + readLength bytes) ≠ []
  := by
  obtain ⟨hlen, hpos, hlt⟩ := h
  rw [ne_eq, List.drop_eq_nil_iff]
  omega

theorem Written.parseWasmKeyParts_eq (hex : List Char) :
  Written.parseWasmKeyParts hex = Explorer.parseWasmKeyParts hex
  := by
  unfold Written.parseWasmKeyParts Explorer.parseWasmKeyParts
  generalize hexToBytes hex = bytes
  by_cases h : Enough bytes
  · have hkey := drop_ne_nil_of_enough h
    rw [entryParts_of_enough h]
    obtain ⟨hlen, hpos, hlt⟩ := h
    dsimp only
    rw [if_neg (by omega), if_neg (by omega)]
    cases Js.textDecodeFatal ((bytes.take (2 + readLength bytes)).drop 2) with
    | none => rfl
    | some ns =>
        cases hprintable : printable ns with
        | false => simp [hprintable]
        | true =>
            simp only [Option.bind_eq_bind, Option.bind_some, hprintable, Bool.true_eq_false,
              if_false, if_true, Option.map_some, List.length_eq_zero_iff, hkey, mapKeyText]
            cases Js.textDecodeFatal (bytes.drop (2 + readLength bytes)) with
            | none => rfl
            | some mapKey =>
                dsimp only
                split_ifs <;> rfl
  · rw [entryParts_of_not_enough h]
    unfold Enough at h
    by_cases hlen : bytes.length < 2
    · rw [if_pos hlen]
      rfl
    · rw [if_neg hlen, if_pos (by omega)]
      rfl

theorem Written.decodeWasmStateKey_eq (hex : List Char) :
  Written.decodeWasmStateKey hex = Explorer.decodeWasmStateKey hex
  := by
  unfold Written.decodeWasmStateKey Explorer.decodeWasmStateKey
  generalize hexToBytes hex = bytes
  by_cases h : Enough bytes
  · have hkey := drop_ne_nil_of_enough h
    dsimp only
    rw [entryParts_of_enough h]
    obtain ⟨hlen, hpos, hlt⟩ := h
    rw [if_pos hlen, if_pos ⟨hpos, hlt⟩]
    cases Js.textDecodeFatal ((bytes.take (2 + readLength bytes)).drop 2) with
    | none => rfl
    | some ns =>
        cases hprintable : printable ns with
        | false =>
            dsimp only [Option.bind_some]
            rewrite [hprintable]
            rfl
        | true =>
            simp only [Option.bind_some, hprintable, if_true, List.length_eq_zero_iff, hkey,
              if_false, mapKeyText]
            cases Js.textDecodeFatal (bytes.drop (2 + readLength bytes)) with
            | none => rfl
            | some mapKey =>
                dsimp only
                split_ifs <;> rfl
  · dsimp only
    rw [entryParts_of_not_enough h]
    unfold Enough at h
    by_cases hlen : 2 ≤ bytes.length
    · rewrite [if_pos hlen, if_neg (by omega)]
      rfl
    · rewrite [if_neg hlen]
      rfl

/-! ### Keys of maps and of items -/

theorem length_encode_of_printable {str : List Char} (h : printable str) :
  (Utf8.encode str).length = str.length
  := by
  rw [← Utf8.map_ofNat_eq_encode_iff.mpr (ascii_of_printable h), List.length_map]

theorem hexToBytes_bytesToHex (bytes : Binary) :
  hexToBytes (bytesToHex bytes) = bytes
  := by
  apply hexToBytes_eq
  rw [bytesToHex_eq, Hex.decode?_encode]

/-- The first two bytes of a printable text make a length of at least `0x2020`. -/
theorem readLength_ge_of_isPrintable {bytes : Binary} (h : IsPrintable bytes)
    (hlen : 2 ≤ bytes.length) :
  8224 ≤ readLength bytes
  := by
  match bytes with
  | b₀ :: b₁ :: bytes =>
      have h₀ := h.2 b₀ List.mem_cons_self
      have h₁ := h.2 b₁ (List.mem_cons_of_mem _ List.mem_cons_self)
      rw [readLength_cons]
      omega

/-- A printable text of up to 8226 bytes does not read as the key of an entry of a map. -/
theorem entryParts_item {str : List Char} (h : printable str) (hlen : str.length ≤ 8226) :
  entryParts (Utf8.encode str) = none
  := by
  apply entryParts_of_not_enough
  rintro ⟨htwo, -, hlt⟩
  have hge := readLength_ge_of_isPrintable (isPrintable_iff.mpr ⟨str, h, rfl⟩) htwo
  rw [length_encode_of_printable h] at hlt
  omega

theorem entryParts_mapEntry {ns key : List Char} (hns : printable ns) (hkey : printable key)
    (hlen : ns.length ≤ 65535) :
  entryParts (mapEntry (Utf8.encode ns) (Utf8.encode key)) = some (ns, Utf8.encode key)
  := by
  apply entryParts_eq_some_iff.mpr
  use hns, Utf8.encode ns, rfl
  rw [length_encode_of_printable hns]
  use by omega, encode_ne_nil hkey, (textDecodeFatal_iff hns).mpr (.inl rfl)

theorem printable_spaces {n : ℕ} (hn : n ≠ 0) :
  printable (List.replicate n ' ')
  := by
  apply printable_iff.mpr
  constructor
  · simpa using hn
  · intro c hc
    rw [List.eq_of_mem_replicate hc]
    decide

/-- With one byte more a text may read as one: of 8227 spaces the first two are the length of the
next 8224. -/
theorem entryParts_item_too_long :
  entryParts (Utf8.encode (List.replicate 8227 ' '))
    = some (List.replicate 8224 ' ', Utf8.encode [' '])
  := by
  have hns := printable_spaces (by decide : 8224 ≠ 0)
  have hsplit : Utf8.encode (List.replicate 8227 ' ')
      = mapEntry (Utf8.encode (List.replicate 8224 ' ')) (Utf8.encode [' ']) := by
    rw [mapEntry, length_encode_of_printable hns, List.length_replicate,
      show 8227 = 2 + 8224 + 1 by rfl, List.replicate_add, List.replicate_add, Utf8.encode_append,
      Utf8.encode_append]
    rfl
  rw [hsplit, entryParts_mapEntry hns rfl (by rw [List.length_replicate]; decide)]

theorem decodeWasmStateKey_of_parse {hex ns key : List Char}
    (h : parseWasmKeyParts hex = some (ns, key)) :
  decodeWasmStateKey hex = ns ++ "::".toList ++ key
  := by
  obtain ⟨⟨ns', keyBytes⟩, hparts, heq⟩ := Option.map_eq_some_iff.mp h
  obtain ⟨-, -, -, -, hkey, -⟩ := entryParts_eq_some_iff.mp hparts
  obtain ⟨rfl, rfl⟩ := Prod.mk.inj heq
  simp only [decodeWasmStateKey, hparts, if_neg hkey]

/-- **State keys are told apart.** The key of an entry of a map, of which the namespace and the map
key are printable ASCII, is read as this namespace and this map key. The key of an item, printable
ASCII of up to 8226 bytes, is not read as that of an entry, and is named by itself. Whenever a key
is read as that of an entry, it is named by its two parts with `::` between them. -/
theorem classify_stateKey :
  (∀ ns key : List Char, printable ns → ns.length ≤ 65535 → printable key →
    Written.parseWasmKeyParts (bytesToHex (mapEntry (Utf8.encode ns) (Utf8.encode key)))
      = some (ns, key)) ∧
  (∀ ns : List Char, printable ns → ns.length ≤ 8226 →
    Written.parseWasmKeyParts (bytesToHex (Utf8.encode ns)) = none ∧
      Written.decodeWasmStateKey (bytesToHex (Utf8.encode ns)) = ns) ∧
  ∀ hex ns key : List Char, Written.parseWasmKeyParts hex = some (ns, key) →
    Written.decodeWasmStateKey hex = ns ++ "::".toList ++ key
  := by
  simp only [Written.parseWasmKeyParts_eq, Written.decodeWasmStateKey_eq]
  constructor
  · intro ns key hns hlen hkey
    rw [parseWasmKeyParts, hexToBytes_bytesToHex, entryParts_mapEntry hns hkey hlen,
      Option.map_some]
    dsimp only
    rw [if_neg (encode_ne_nil hkey), mapKeyText_encode hkey]
  · constructor
    · intro ns hns hlen
      have hparts := entryParts_item hns hlen
      constructor
      · rw [parseWasmKeyParts, hexToBytes_bytesToHex, hparts, Option.map_none]
      · rw [decodeWasmStateKey, hexToBytes_bytesToHex, hparts]
        simp only [(textDecodeFatal_iff hns).mpr (.inl rfl), if_pos hns]
    · intro hex ns key h
      apply decodeWasmStateKey_of_parse h

theorem classify_stateKey_sample :
  Written.parseWasmKeyParts "0003666f6f626172".toList = some ("foo".toList, "bar".toList) ∧
    Written.decodeWasmStateKey "0003666f6f626172".toList = "foo::bar".toList ∧
    Written.parseWasmKeyParts "636f6e666967".toList = none
  := by
  have hparsed := classify_stateKey.1 "foo".toList "bar".toList rfl (by decide) rfl
  have hitem := classify_stateKey.2.1 "config".toList rfl (by decide)
  exact ⟨hparsed, classify_stateKey.2.2 _ _ _ hparsed, hitem.1⟩

end Explorer
