import InterchainEvents.Explorer.Address
import InterchainEvents.Shared.Wire

/-!
# The keys of the explorer's leaves

The key of an entry of a map is taken apart into the texts of its namespace and of its map key,
and put together again from these texts (`rekey`). That gives the same key back exactly when
both parts are printable ASCII (`rekey_eq_self_iff`): a byte order mark is lost, and a binary map
key comes back as the text of its digits.
-/

namespace Explorer

open Shared

/-! ### Printable texts and bytes -/

/-- Bytes that are printable ASCII. -/
def IsPrintable (bytes : Binary) : Prop :=
  bytes ≠ [] ∧ ∀ b ∈ bytes, 0x20 ≤ b.toNat ∧ b.toNat ≤ 0x7E

theorem printable_iff {str : List Char} :
  printable str = true ↔ str ≠ [] ∧ ∀ c ∈ str, 0x20 ≤ c.toNat ∧ c.toNat ≤ 0x7E
  := by
  simp [printable]

theorem ascii_of_printable {str : List Char} (h : printable str) :
  ∀ c ∈ str, c.toNat < 0x80
  := by
  intro c hc
  have := (printable_iff.mp h).2 c hc
  omega

/-- Printable bytes are the encodings of printable texts. -/
theorem isPrintable_iff {bytes : Binary} :
  IsPrintable bytes ↔ ∃ str, printable str ∧ bytes = Utf8.encode str
  := by
  constructor
  · rintro ⟨hne, hall⟩
    use Utf8.latin1 bytes
    constructor
    · apply printable_iff.mpr
      constructor
      · simpa [Utf8.latin1] using hne
      · intro c hc
        obtain ⟨b, hb, rfl⟩ := List.mem_map.mp hc
        rw [Utf8.toNat_latin1]
        apply hall b hb
    · apply Utf8.eq_encode_latin1_iff.mpr
      intro b hb
      have := hall b hb
      omega
  · rintro ⟨str, hstr, rfl⟩
    obtain ⟨hne, hall⟩ := printable_iff.mp hstr
    rw [← Utf8.map_ofNat_eq_encode_iff.mpr (ascii_of_printable hstr)]
    constructor
    · simpa using hne
    · intro b hb
      obtain ⟨c, hc, rfl⟩ := List.mem_map.mp hb
      have := hall c hc
      rw [Utf8.toNat_ofNat_of_lt (by omega)]
      apply this

/-- A printable text does not begin with a mark. -/
theorem head_of_printable {str : List Char} (h : printable str) :
  str.head? ≠ some Js.byteOrderMark
  := by
  intro hhead
  have := ascii_of_printable h _ (List.mem_of_mem_head? hhead)
  contradiction

/-- A printable text is decoded from its encoding, and from that after a mark. -/
theorem textDecodeFatal_iff {bytes : Binary} {str : List Char} (h : printable str) :
  Js.textDecodeFatal bytes = some str
    ↔ bytes = Utf8.encode str ∨ bytes = Js.markBytes ++ Utf8.encode str
  := by
  rw [Js.textDecodeFatal, Option.map_eq_some_iff]
  simp only [Js.dropMark_eq_iff (head_of_printable h), Utf8.decode?_eq_some_iff]
  rw [Js.markBytes, ← Utf8.encode_append]
  constructor
  · rintro ⟨cs, rfl, rfl | rfl⟩
    · left
      rfl
    · right
      rfl
  · rintro (rfl | rfl)
    · use str
      simp
    · use Js.byteOrderMark :: str
      simp

/-- Bytes that are decoded to a printable text: printable ASCII, perhaps after a byte order mark. -/
def ReadsPrintable (bytes : Binary) : Prop :=
  IsPrintable bytes ∨ ∃ bytes', IsPrintable bytes' ∧ bytes = Js.markBytes ++ bytes'

theorem readsPrintable_iff {bytes : Binary} :
  ReadsPrintable bytes ↔ ∃ str, printable str ∧ Js.textDecodeFatal bytes = some str
  := by
  constructor
  · rintro (hbytes | ⟨bytes', hbytes', rfl⟩)
    · obtain ⟨str, hstr, rfl⟩ := isPrintable_iff.mp hbytes
      use str, hstr, (textDecodeFatal_iff hstr).mpr (.inl rfl)
    · obtain ⟨str, hstr, rfl⟩ := isPrintable_iff.mp hbytes'
      use str, hstr, (textDecodeFatal_iff hstr).mpr (.inr rfl)
  · rintro ⟨str, hstr, hdecode⟩
    rcases (textDecodeFatal_iff hstr).mp hdecode with rfl | rfl
    · left
      apply isPrintable_iff.mpr ⟨str, hstr, rfl⟩
    · right
      use Utf8.encode str, isPrintable_iff.mpr ⟨str, hstr, rfl⟩

/-- The text of a map key is printable, whatever its bytes are. -/
theorem printable_mapKeyText (keyBytes : Binary) :
  printable (mapKeyText keyBytes)
  := by
  have hhex : printable ("0x".toList ++ bytesToHex keyBytes) := by
    have hdigits : ∀ n < 16, 0x20 ≤ (Nat.digitChar n).toNat ∧ (Nat.digitChar n).toNat ≤ 0x7E := by
      decide
    have hstart : ∀ c ∈ "0x".toList, 0x20 ≤ c.toNat ∧ c.toNat ≤ 0x7E := by simp
    apply printable_iff.mpr
    use by simp
    intro c hc
    rcases List.mem_append.mp hc with hc | hc
    · apply hstart c hc
    · rw [bytesToHex_eq] at hc
      obtain ⟨n, hn, rfl⟩ := Hex.mem_encode hc
      apply hdigits n hn
  unfold mapKeyText
  split
  · split_ifs with h
    · apply h
    · apply hhex
  · apply hhex

/-- A printable map key is shown as itself. -/
theorem mapKeyText_encode {str : List Char} (h : printable str) :
  mapKeyText (Utf8.encode str) = str
  := by
  rw [mapKeyText, (textDecodeFatal_iff h).mpr (.inl rfl)]
  simp [h]

/-! ### Entries of maps -/

/-- A number in two bytes. -/
def lengthPrefix (n : ℕ) : Binary :=
  [UInt8.ofNat (n / 256), UInt8.ofNat (n % 256)]

/-- The key of an entry of a map: the length of the namespace, the namespace and the map key. -/
def mapEntry (ns key : Binary) : Binary :=
  lengthPrefix ns.length ++ ns ++ key

theorem toNat_lengthPrefix {n : ℕ} (hn : n < 65536) :
  (UInt8.ofNat (n / 256)).toNat * 256 + (UInt8.ofNat (n % 256)).toNat = n
  := by
  rw [Utf8.toNat_ofNat_of_lt (by omega), Utf8.toNat_ofNat_of_lt (by omega)]
  omega

theorem mapEntry_injective {ns ns' key key' : Binary} (hns : ns.length < 65536)
    (hns' : ns'.length < 65536) (h : mapEntry ns key = mapEntry ns' key') :
  ns = ns' ∧ key = key'
  := by
  simp only [mapEntry, lengthPrefix, List.cons_append, List.nil_append, List.cons.injEq] at h
  obtain ⟨hhigh, hlow, hrest⟩ := h
  apply List.append_inj hrest
  rw [← toNat_lengthPrefix hns, ← toNat_lengthPrefix hns', hhigh, hlow]

theorem encode_ne_nil {str : List Char} (h : printable str) :
  Utf8.encode str ≠ []
  := (isPrintable_iff.mpr ⟨str, h, rfl⟩).1

/-- The parts of the key of an entry of a map. -/
theorem entryParts_eq_some_iff {bytes key : Binary} {ns : List Char} :
  entryParts bytes = some (ns, key)
    ↔ printable ns ∧ ∃ nsBytes, bytes = mapEntry nsBytes key ∧ nsBytes.length < 65536 ∧
        key ≠ [] ∧ Js.textDecodeFatal nsBytes = some ns
  := by
  constructor
  · intro h
    unfold entryParts at h
    split at h
    · rename_i b₀ b₁ bytes
      dsimp only at h
      split_ifs at h with hlen
      rw [not_or, not_le] at hlen
      obtain ⟨ns', hns', h⟩ := Option.bind_eq_some_iff.mp h
      obtain ⟨hprintable, h⟩ := Option.ite_none_right_eq_some.mp h
      obtain ⟨rfl, rfl⟩ := Prod.mk.inj (Option.some.inj h)
      have h₀ := b₀.toNat_lt
      have h₁ := b₁.toNat_lt
      have htake : (bytes.take (b₀.toNat * 256 + b₁.toNat)).length
          = b₀.toNat * 256 + b₁.toNat := by
        rw [List.length_take]
        omega
      use hprintable, bytes.take (b₀.toNat * 256 + b₁.toNat)
      refine ⟨?_, by omega, ?_, hns'⟩
      · have hhigh : (b₀.toNat * 256 + b₁.toNat) / 256 = b₀.toNat := by omega
        have hlow : (b₀.toNat * 256 + b₁.toNat) % 256 = b₁.toNat := by omega
        rw [mapEntry, htake, lengthPrefix, hhigh, hlow, UInt8.ofNat_toNat, UInt8.ofNat_toNat,
          List.append_assoc, List.take_append_drop]
        rfl
      · rw [ne_eq, List.drop_eq_nil_iff]
        omega
    · contradiction
  · rintro ⟨hprintable, nsBytes, rfl, hlen, hkey, hns⟩
    have hne : nsBytes.length ≠ 0 := by
      have := encode_ne_nil hprintable
      rcases (textDecodeFatal_iff hprintable).mp hns with rfl | rfl <;> simp [this]
    have hpos := List.length_pos_of_ne_nil hkey
    simp only [mapEntry, lengthPrefix, List.cons_append, List.nil_append, entryParts,
      toNat_lengthPrefix hlen]
    have hcond : ¬ (nsBytes.length = 0 ∨ (nsBytes ++ key).length ≤ nsBytes.length) := by
      rw [not_or, List.length_append]
      omega
    rw [if_neg hcond, List.take_left, hns, Option.bind_some, if_pos hprintable, List.drop_left]

/-- The key that the explorer puts together for a leaf, of the parts it has shown a key in. -/
def rekey (raw : Binary) : Binary :=
  match entryParts raw with
  | some (ns, key) => mapEntry (Utf8.encode ns) (Utf8.encode (mapKeyText key))
  | none => raw

/-- A key that, if it reads as that of an entry of a map, has a printable namespace and map
key. -/
def Kept (raw : Binary) : Prop :=
  ∀ ns key, raw = mapEntry ns key → ns.length < 65536 → key ≠ [] → ReadsPrintable ns →
    IsPrintable ns ∧ IsPrintable key

theorem rekey_of_some {raw key : Binary} {ns : List Char} (h : entryParts raw = some (ns, key)) :
  rekey raw = mapEntry (Utf8.encode ns) (Utf8.encode (mapKeyText key))
  := by
  rw [rekey, h]

theorem rekey_of_none {raw : Binary} (h : entryParts raw = none) :
  rekey raw = raw
  := by
  rw [rekey, h]

theorem length_encode_lt {raw key : Binary} {ns : List Char} (h : entryParts raw = some (ns, key)) :
  (Utf8.encode ns).length < 65536
  := by
  obtain ⟨hprintable, nsBytes, -, hlen, -, hns⟩ := entryParts_eq_some_iff.mp h
  rcases (textDecodeFatal_iff hprintable).mp hns with rfl | rfl
  · apply hlen
  · rw [List.length_append] at hlen
    omega

/-- A key put together is shown in the same parts, and put together as it is. -/
theorem rekey_rekey (raw : Binary) :
  rekey (rekey raw) = rekey raw
  := by
  cases h : entryParts raw with
  | none => rw [rekey_of_none h, rekey_of_none h]
  | some parts =>
      obtain ⟨ns, key⟩ := parts
      have hprintable := (entryParts_eq_some_iff.mp h).1
      have hkey := printable_mapKeyText key
      have hparts : entryParts (rekey raw) = some (ns, Utf8.encode (mapKeyText key)) := by
        apply entryParts_eq_some_iff.mpr
        rw [rekey_of_some h]
        use hprintable, Utf8.encode ns, rfl, length_encode_lt h, encode_ne_nil hkey
        apply (textDecodeFatal_iff hprintable).mpr (.inl rfl)
      rw [rekey_of_some hparts, mapKeyText_encode hkey, rekey_of_some h]

/-- Printable bytes do not begin with a mark. -/
theorem not_isPrintable_mark (bytes : Binary) :
  ¬ IsPrintable (Js.markBytes ++ bytes)
  := by
  rintro ⟨-, hall⟩
  have := hall 0xEF (by simp [Js.markBytes, Js.byteOrderMark, Utf8.encode, String.utf8EncodeChar])
  contradiction

/-- A key is put together as it was exactly when its parts, if it has any, are printable. -/
theorem rekey_eq_self_iff {raw : Binary} :
  rekey raw = raw ↔ Kept raw
  := by
  constructor
  · rintro h ns key rfl hlen hkey hns
    obtain ⟨str, hstr, hdecode⟩ := readsPrintable_iff.mp hns
    have hparts : entryParts (mapEntry ns key) = some (str, key) :=
      entryParts_eq_some_iff.mpr ⟨hstr, ns, rfl, hlen, hkey, hdecode⟩
    rw [rekey_of_some hparts] at h
    obtain ⟨hns', hkey'⟩ := mapEntry_injective (length_encode_lt hparts) hlen h
    constructor
    · apply isPrintable_iff.mpr
      use str, hstr, hns'.symm
    · apply isPrintable_iff.mpr
      use mapKeyText key, printable_mapKeyText key, hkey'.symm
  · intro h
    cases hparts : entryParts raw with
    | none => apply rekey_of_none hparts
    | some parts =>
        obtain ⟨ns, key⟩ := parts
        obtain ⟨hstr, nsBytes, rfl, hlen, hkey, hns⟩ := entryParts_eq_some_iff.mp hparts
        obtain ⟨hns', hkey'⟩ := h nsBytes key rfl hlen hkey (readsPrintable_iff.mpr ⟨ns, hstr, hns⟩)
        obtain ⟨str, hstr', rfl⟩ := isPrintable_iff.mp hkey'
        rw [rekey_of_some hparts, mapKeyText_encode hstr']
        rcases (textDecodeFatal_iff hstr).mp hns with rfl | rfl
        · rfl
        · exact absurd hns' (not_isPrintable_mark _)

end Explorer
