import InterchainEvents.Explorer.TreeNode

/-!
# Addresses as code units

The explorer cuts the checksum off an address by its code units, and then reads the characters of
what is left after the separator. The decoder and its copy next to the search field are given here
as they are written, with their loop over an accumulator that keeps all bits and wraps around.

An address is decoded to the bytes it stands for, a character that is not in the alphabet makes
the decoder throw, and without one the copy gives the same (`bech32AddrToHex_exact`).
-/

namespace Explorer

namespace Written

/-! ### The functions as they are written -/

/-- `CHARSET.indexOf(c)` -/
def charsetIndex : Option Char → ℤ
  | some c => TreeNode.indexOf Bech32.alphabet c
  | none => -1

/-- The variables of the loop that converts 5-bit groups to 8-bit bytes. -/
structure Groups where
  acc : BitVec 32
  bits : ℕ
  bytes : List UInt8

/-- The inner loop: bytes are taken while there are eight bits. -/
def takeBytes (l : Groups) : Groups :=
  if 8 ≤ l.bits then
    let bits := l.bits - 8
    takeBytes { l with bits := bits, bytes := l.bytes ++ [accByte l.acc bits] }
  else l
termination_by l.bits

/-- What the outer loop does with a group. -/
def addGroup (l : Groups) (v : ℤ) : Groups :=
  takeBytes { l with acc := l.acc <<< 5 ||| BitVec.ofInt 32 v, bits := l.bits + 5 }

/-- Convert 5-bit groups to 8-bit bytes. -/
def groupBytes (values : List ℤ) : List UInt8 :=
  (values.foldl addGroup ⟨0, 0, []⟩).bytes

/-- What the decoder does with a character: it throws if that is not in the alphabet. -/
def readChar (c : Option Char) : Option ℤ :=
  let v := charsetIndex c
  if v < 0 then none else some v

/-- `bech32AddrToHex` as it is written. -/
def bech32AddrToHex (addr : List UInt16) : Option (List Char) := do
  let values ← (dataChars addr).mapM readChar
  some (bytesToHex (groupBytes values))

/-- `bech32ToHex` in `openSubscribeForSearch` as it is written. -/
def bech32ToHex (addr : List UInt16) : List Char :=
  let values := (dataChars addr).map charsetIndex
  (groupBytes values).flatMap TreeNode.byteToHex

/-! ### The loop -/

theorem takeBytes_eq (l : Groups) :
  takeBytes l = ⟨l.acc, l.bits % 8, l.bytes ++ drain l.acc (l.bits / 8) l.bits⟩
  := by
  induction l using takeBytes.induct with
  | case1 l h bits ih =>
      have hdiv : l.bits / 8 = bits / 8 + 1 := by omega
      have hmod : l.bits % 8 = bits % 8 := by omega
      rw [takeBytes, if_pos h, ih, hdiv, hmod, drain, List.append_assoc, List.singleton_append]
  | case2 l h =>
      have hdiv : l.bits / 8 = 0 := by omega
      have hmod : l.bits % 8 = l.bits := by omega
      rw [takeBytes, if_neg h, hdiv, hmod, drain, List.append_nil]

theorem bytes_foldl_addGroup (l : Groups) (values : List ℤ) :
  (values.foldl addGroup l).bytes = l.bytes ++ TreeNode.convertBits l.acc l.bits values
  := by
  induction values generalizing l with
  | nil => rw [List.foldl_nil, TreeNode.convertBits, List.append_nil]
  | cons v values ih =>
      rw [List.foldl_cons, ih, addGroup, takeBytes_eq, TreeNode.convertBits, List.append_assoc]

theorem groupBytes_eq (values : List ℤ) :
  groupBytes values = TreeNode.convertBits 0 0 values
  := by
  rw [groupBytes, bytes_foldl_addGroup, List.nil_append]

/-! ### Characters in the alphabet -/

theorem readChar_of_not_mem {c : Option Char} (h : ∀ a ∈ Bech32.alphabet, c ≠ some a) :
  readChar c = none
  := by
  cases c with
  | none => rfl
  | some c =>
      have hc : ¬ Bech32.alphabet.idxOf c < Bech32.alphabet.length := by
        rw [List.idxOf_lt_length_iff]
        intro hmem
        exact h c hmem rfl
      rw [readChar, charsetIndex, TreeNode.indexOf, if_neg hc]
      rfl

theorem charsetIndex_some {a : Char} (ha : a ∈ Bech32.alphabet) :
  charsetIndex (some a) = Bech32.alphabet.idxOf a
  := by
  rw [charsetIndex, TreeNode.indexOf, if_pos (List.idxOf_lt_length_iff.mpr ha)]

theorem readChar_some {a : Char} (ha : a ∈ Bech32.alphabet) :
  readChar (some a) = some (charsetIndex (some a))
  := by
  rw [readChar, if_neg]
  rw [charsetIndex_some ha]
  omega

theorem mapM_eq_none {α β : Type} {f : α → Option β} {xs : List α} {x : α} (hx : x ∈ xs)
    (h : f x = none) :
  xs.mapM f = none
  := by
  induction xs with
  | nil => contradiction
  | cons y ys ih =>
      rw [List.mapM_cons]
      rcases List.mem_cons.mp hx with rfl | hx
      · rw [h]
        rfl
      · rw [ih hx]
        cases f y <;> rfl

/-- A character outside the alphabet makes the decoder throw. -/
theorem bech32AddrToHex_of_not_mem {addr : List UInt16} {c : Option Char}
    (hc : c ∈ dataChars addr) (hout : ∀ a ∈ Bech32.alphabet, c ≠ some a) :
  bech32AddrToHex addr = none
  := by
  rw [bech32AddrToHex, mapM_eq_none hc (readChar_of_not_mem hout)]
  rfl

/-- Without such a character the copy gives the same. -/
theorem bech32AddrToHex_eq_bech32ToHex {addr : List UInt16}
    (hin : ∀ c ∈ dataChars addr, ∃ a ∈ Bech32.alphabet, c = some a) :
  bech32AddrToHex addr = some (bech32ToHex addr)
  := by
  have hvalues : (dataChars addr).mapM readChar = some ((dataChars addr).map charsetIndex) := by
    apply mapM_eq_some
    intro c hc
    obtain ⟨a, ha, rfl⟩ := hin c hc
    apply readChar_some ha
  rw [bech32AddrToHex, hvalues]
  rfl

/-! ### Characters and groups -/

/-- Groups are found like by the explorer. -/
theorem mapM_readChar (data : List (Option Char)) :
  data.mapM readChar = (data.mapM group).map (·.map Int.ofNat)
  := by
  induction data with
  | nil => rfl
  | cons c data ih =>
      have hread : readChar c = (group c).map Int.ofNat := by
        cases c with
        | none => rfl
        | some c =>
            by_cases hc : c ∈ Bech32.alphabet
            · rw [readChar_some hc, group, if_pos (List.idxOf_lt_length_iff.mpr hc),
                charsetIndex_some hc]
              rfl
            · have hnone : readChar (some c) = none := by
                apply readChar_of_not_mem
                rintro a ha heq
                exact hc (Option.some.inj heq ▸ ha)
              rw [hnone, group, if_neg fun hlt => hc (List.idxOf_lt_length_iff.mp hlt)]
              rfl
      rw [List.mapM_cons, List.mapM_cons, ih, hread]
      cases group c with
      | none => rfl
      | some v => cases data.mapM group <;> rfl

/-- The decoder as it is written is the one of the explorer. -/
theorem bech32AddrToHex_encode (addr : List Char) :
  bech32AddrToHex (Utf16.encode addr) = Explorer.bech32AddrToHex addr
  := by
  rw [bech32AddrToHex, mapM_readChar, Explorer.bech32AddrToHex]
  cases (dataChars (Utf16.encode addr)).mapM group with
  | none => rfl
  | some values =>
      show some (bytesToHex (groupBytes (values.map Int.ofNat))) = some _
      rw [groupBytes_eq, TreeNode.convertBits_map]

end Written

/-- **Regrouping is exact.** Let an address be any prefix, the separator, the groups of five bits of
any bytes, completed with zero bits, and a checksum of six characters of the alphabet: it is decoded
to these bytes, however often its bits have run out of the accumulator. On any text, a character
outside the alphabet between separator and checksum makes the decoder throw, and without one the
copy next to the search field gives what the decoder gives. -/
theorem bech32AddrToHex_exact :
  (∀ (hrp : List Char) (payload : List UInt8) (checksum : List Char), checksum.length = 6 →
    (∀ c ∈ checksum, c ∈ Bech32.alphabet) →
      Written.bech32AddrToHex (Utf16.encode (Bech32.address hrp payload checksum))
        = some (Hex.encode payload)) ∧
  (∀ addr, ∀ c ∈ Written.dataChars addr, (∀ a ∈ Bech32.alphabet, c ≠ some a) →
    Written.bech32AddrToHex addr = none) ∧
  ∀ addr, (∀ c ∈ Written.dataChars addr, ∃ a ∈ Bech32.alphabet, c = some a) →
    Written.bech32AddrToHex addr = some (Written.bech32ToHex addr)
  := by
  refine ⟨?_, ?_, ?_⟩
  · intro hrp payload checksum hlength hchecksum
    rw [Written.bech32AddrToHex_encode, bech32AddrToHex_address hrp payload hlength hchecksum]
  · intro addr c hc hout
    apply Written.bech32AddrToHex_of_not_mem hc hout
  · intro addr hin
    apply Written.bech32AddrToHex_eq_bech32ToHex hin

/-- An address of five bytes, which are more bits than the accumulator has; a capital letter; an
address that both functions read. -/
theorem bech32AddrToHex_exact_sample :
  Written.bech32AddrToHex (Utf16.encode
      (Bech32.address "neutron".toList [0xFF, 0xFE, 0xFD, 0xFC, 0x80] sampleChecksum))
    = some (Hex.encode [0xFF, 0xFE, 0xFD, 0xFC, 0x80]) ∧
  Written.bech32AddrToHex (Json.str "neutron1Q8jevwd") = none ∧
  Written.bech32AddrToHex (Json.str "neutron1q8jevwd")
    = some (Written.bech32ToHex (Json.str "neutron1q8jevwd"))
  := by
  refine ⟨?_, ?_, ?_⟩
  · apply bech32AddrToHex_exact.1 _ _ _ rfl sampleChecksum_alphabet
  · have hdata : Written.dataChars (Json.str "neutron1Q8jevwd") = [some 'Q'] := by decide
    apply bech32AddrToHex_exact.2.1 _ (some 'Q')
    · rw [hdata]
      apply List.mem_singleton_self
    · have hout : 'Q' ∉ Bech32.alphabet := by decide
      rintro a ha heq
      exact hout (Option.some.inj heq ▸ ha)
  · have hdata : Written.dataChars (Json.str "neutron1q8jevwd") = [some 'q'] := by decide
    apply bech32AddrToHex_exact.2.2
    rw [hdata]
    intro c hc
    use 'q'
    use by decide
    apply List.mem_singleton.mp hc

end Explorer
