import InterchainEvents.Explorer.Wasm

/-!
# Addresses and hexadecimal texts in the explorer

The explorer decodes the address of a contract with an accumulator of 32 bits that is never
masked. The bits it takes are among the lowest twelve, where nothing is lost, so an address is
decoded to the bytes it stands for (`bech32AddrToHex_address`).
-/

namespace Explorer

/-! ### The accumulator -/

/-- A byte taken from the accumulator, where the sign does not reach. -/
theorem accByte_eq (acc : BitVec 32) {n : ℕ} (hn : n + 8 ≤ 32) :
  accByte acc n = UInt8.ofNat (acc.toNat / 2 ^ n % 2 ^ 8)
  := by
  rw [accByte]
  congr 1
  apply Nat.eq_of_testBit_eq
  intro i
  rw [show 256 = 2 ^ 8 by rfl, Nat.testBit_mod_two_pow, Nat.testBit_mod_two_pow,
    Nat.testBit_div_two_pow]
  by_cases hi : i < 8
  · have hlt : n + i < 32 := by omega
    have h32 : ¬ 32 ≤ i := by omega
    rw [BitVec.testBit_toNat, BitVec.getLsbD_sshiftRight, BitVec.testBit_toNat]
    simp [hi, hlt, h32, Nat.add_comm]
  · simp [hi]

/-- The lowest bits of the accumulator after a group is appended. -/
theorem append_mod (acc : BitVec 32) {v bits : ℕ} (hv : v < 32) (hbits : bits + 5 ≤ 32) :
  (acc <<< 5 ||| BitVec.ofNat 32 v).toNat % 2 ^ (bits + 5)
    = acc.toNat % 2 ^ bits * 32 + v
  := by
  have hshift : (acc <<< 5).toNat = 2 ^ 5 * (acc.toNat % 2 ^ 27) := by
    rw [BitVec.toNat_shiftLeft, Nat.shiftLeft_eq]
    omega
  have hgroup : (BitVec.ofNat 32 v).toNat = v := by
    rw [BitVec.toNat_ofNat]
    omega
  have hlow : acc.toNat % 2 ^ 27 % 2 ^ bits = acc.toNat % 2 ^ bits :=
    Nat.mod_mod_of_dvd _ (Nat.pow_dvd_pow 2 (by omega))
  rw [BitVec.toNat_or, hshift, hgroup, ← Nat.two_pow_add_eq_or_of_lt (by omega : v < 2 ^ 5),
    Nat.add_comm bits 5, Nat.pow_add, Nat.mod_mul, Nat.mul_add_mod, Nat.mod_eq_of_lt (by omega),
    Nat.mul_add_div (by decide), Nat.div_eq_of_lt (by omega), Nat.add_zero, hlow]
  omega

/-- The explorer's loop gathers the bits that are left over and those of the groups. -/
theorem convertBits_eq (acc : BitVec 32) {bits : ℕ} (hbits : bits < 8) {vs : List ℕ}
    (hvs : ∀ v ∈ vs, v < 32) :
  convertBits acc bits vs = Bech32.ungroup (acc.toNat % 2 ^ bits) bits vs
  := by
  induction vs generalizing acc bits with
  | nil => rfl
  | cons v vs ih =>
      have happend := append_mod acc (hvs v List.mem_cons_self) (by omega : bits + 5 ≤ 32)
      have hvs' : ∀ w ∈ vs, w < 32 := fun w hw => hvs w (List.mem_cons_of_mem v hw)
      rw [convertBits, Bech32.ungroup, ← happend]
      generalize acc <<< 5 ||| BitVec.ofNat 32 v = acc'
      by_cases hlt : bits + 5 < 8
      · rw [if_pos hlt, Nat.div_eq_of_lt hlt, Nat.mod_eq_of_lt hlt, ih acc' hlt hvs']
        rfl
      · have hdiv : (bits + 5) / 8 = 1 := by omega
        have hmod : (bits + 5) % 8 = bits - 3 := by omega
        have hpow : 2 ^ (bits + 5) = 2 ^ (bits - 3) * 2 ^ 8 := by
          rw [← Nat.pow_add]
          congr 1
          omega
        rw [if_neg hlt, hdiv, hmod, ih acc' (by omega) hvs']
        simp only [drain, List.singleton_append]
        rw [show bits + 5 - 8 = bits - 3 by omega, accByte_eq acc' (by omega), hpow,
          Nat.mod_mul_right_div_self, Nat.mod_mul_right_mod]

/-! ### Hexadecimal texts -/

theorem byteToHex_eq (b : UInt8) :
  byteToHex b = Hex.byte b
  := by
  have hall : ∀ n < 256, Js.padStart 2 '0' (Nat.toDigits 16 n)
      = [Nat.digitChar (n / 16), Nat.digitChar (n % 16)] := by decide +kernel
  apply hall b.toNat b.toNat_lt

theorem bytesToHex_eq (bytes : List UInt8) :
  bytesToHex bytes = Hex.encode bytes
  := by
  rw [bytesToHex, Hex.encode, funext byteToHex_eq]

/-- The explorer reads the bytes that a text of digits denotes. -/
theorem hexToBytes_eq {hex : List Char} {bytes : List UInt8} (h : Hex.decode? hex = some bytes) :
  hexToBytes hex = bytes
  := by
  induction hex using Hex.decode?.induct generalizing bytes with
  | case1 =>
      obtain rfl := Option.some.inj h
      rfl
  | case2 c => contradiction
  | case3 c d cs ih =>
      rw [Hex.decode?, Option.bind_eq_bind, Option.bind_eq_some_iff] at h
      obtain ⟨m, hm, h⟩ := h
      rw [Option.bind_eq_bind, Option.bind_eq_some_iff] at h
      obtain ⟨n, hn, h⟩ := h
      obtain ⟨rest, hrest, h⟩ := Option.bind_eq_some_iff.mp h
      rw [hexToBytes, Js.toUint8_parseInt hm hn, ih hrest, ← Option.some.inj h]

/-- A number of two bytes in four digits. -/
theorem padStart_toDigits {n : ℕ} (hn : n < 65536) :
  Js.padStart 4 '0' (Nat.toDigits 16 n)
    = Hex.encode [UInt8.ofNat (n / 256), UInt8.ofNat (n % 256)]
  := by
  have hstep (k m : ℕ) : Js.padStart (k + 2) '0' (Nat.toDigits 16 m)
      = Js.padStart (k + 1) '0' (Nat.toDigits 16 (m / 16)) ++ [Nat.digitChar (m % 16)] := by
    rw [Nat.toDigits_eq_if (by decide)]
    split_ifs with hlt
    · rw [Nat.div_eq_of_lt hlt, Nat.mod_eq_of_lt hlt, Nat.toDigits_zero]
      simp [Js.padStart, List.replicate_succ']
    · simp [Js.padStart]
  have hhigh : (UInt8.ofNat (n / 256)).toNat = n / 256 := Utf8.toNat_ofNat_of_lt (by omega)
  have hlow : (UInt8.ofNat (n % 256)).toNat = n % 256 := Utf8.toNat_ofNat_of_lt (by omega)
  rw [hstep 2, hstep 1, hstep 0, Nat.toDigits_of_lt_base (by omega)]
  have h₃ : n / 16 / 16 / 16 = n / 256 / 16 := by omega
  have h₂ : n / 16 / 16 % 16 = n / 256 % 16 := by omega
  have h₁ : n / 16 % 16 = n % 256 / 16 := by omega
  have h₀ : n % 16 = n % 256 % 16 := by omega
  simp only [Hex.encode, Hex.byte, List.flatMap_cons, List.flatMap_nil, hhigh, hlow]
  rw [h₃, h₂, h₁, h₀]
  rfl

/-! ### Code units and characters -/

namespace Written

theorem lastIndexOf_append {u : UInt16} {vs : List UInt16} (h : u ∉ vs) (us : List UInt16) :
  lastIndexOf (us ++ u :: vs) u = us.length
  := by
  have hreverse : (us ++ u :: vs).reverse = vs.reverse ++ u :: us.reverse := by simp
  have hnot : u ∉ vs.reverse := fun hmem => h (List.mem_reverse.mp hmem)
  rw [lastIndexOf, hreverse, List.idxOf_append_of_notMem hnot, List.idxOf_cons_self,
    List.length_reverse, List.length_append, List.length_cons]
  omega

theorem lastIndexOf_of_not_mem {u : UInt16} {us : List UInt16} (h : u ∉ us) :
  lastIndexOf us u = -1
  := by
  have hnot : u ∉ us.reverse := fun hmem => h (List.mem_reverse.mp hmem)
  rw [lastIndexOf, List.idxOf_of_notMem hnot, List.length_reverse]
  omega

/-- The separator is a code unit of no other character. -/
theorem separator_not_mem {cs : List Char} (h : '1' ∉ cs) :
  0x31 ∉ Utf16.encode cs
  := Utf16.not_mem_encode (c := '1') (by decide) h

/-- Cutting off the last six code units is cutting off the last six characters, if each of these
has one code unit. -/
theorem take_encode {addr : List Char}
    (hlast : ∀ c ∈ addr.drop (addr.length - 6), c.toNat < 0x10000) :
  (Utf16.encode addr).take ((Utf16.encode addr).length - 6)
    = Utf16.encode (addr.take (addr.length - 6))
  := by
  have hsplit : Utf16.encode addr = Utf16.encode (addr.take (addr.length - 6))
      ++ Utf16.encode (addr.drop (addr.length - 6)) := by
    rw [← Utf16.encode_append, List.take_append_drop]
  have hlength := Utf16.length_encode hlast
  rw [List.length_drop] at hlength
  by_cases hlt : addr.length < 6
  · have hzero : addr.length - 6 = 0 := by omega
    rw [hzero, List.drop_zero] at hlength
    have hzero' : (Utf16.encode addr).length - 6 = 0 := by omega
    rw [hzero, hzero']
    rfl
  · rw [hsplit, List.length_append, hlength]
    apply List.take_left'
    omega

/-- Dropping the code units of the beginning is dropping its characters. -/
theorem drop_encode {text init before : List Char} (hinit : init <+: text)
    (hbefore : before <+: text) :
  (Utf16.encode init).drop (Utf16.encode before).length
    = Utf16.encode (init.drop before.length)
  := by
  rcases List.prefix_or_prefix_of_prefix hinit hbefore with ⟨rest, rfl⟩ | ⟨rest, rfl⟩
  · have hle : (Utf16.encode init).length ≤ (Utf16.encode (init ++ rest)).length := by
      rw [Utf16.encode_append, List.length_append]
      omega
    rw [List.drop_eq_nil_of_le hle, List.drop_eq_nil_of_le (by simp)]
    rfl
  · rw [Utf16.encode_append, List.drop_left, List.drop_left]

/-- The characters that are decoded, for an address whose last six characters have one code unit
each. -/
theorem dataChars_encode {addr : List Char}
    (hlast : ∀ c ∈ addr.drop (addr.length - 6), c.toNat < 0x10000) :
  dataChars (Utf16.encode addr)
    = ((addr.take (addr.length - 6)).drop (Js.afterLast '1' addr)).map some
  := by
  have hinit : addr.take (addr.length - 6) <+: addr := List.take_prefix _ _
  rw [dataChars, take_encode hlast, ← Utf16.decode_encode]
  congr 1
  by_cases hmem : '1' ∈ addr
  · obtain ⟨before, after, hsplit, hafter⟩ := Js.exists_append_cons_not_mem hmem
    have hunits : Utf16.encode addr = Utf16.encode before ++ 0x31 :: Utf16.encode after := by
      rw [hsplit, Utf16.encode_append]
      rfl
    have hbefore : before ++ ['1'] <+: addr := ⟨after, by simp [hsplit]⟩
    have hdrop := drop_encode hinit hbefore
    rw [Utf16.encode_append, List.length_append, List.length_append] at hdrop
    have hplace : Js.afterLast '1' addr = before.length + 1 := by
      rw [hsplit, Js.afterLast_append hafter]
    rw [hunits, lastIndexOf_append (separator_not_mem hafter), hplace]
    apply hdrop
  · rw [lastIndexOf_of_not_mem (separator_not_mem hmem), Js.afterLast_of_not_mem hmem]
    rfl

theorem toNat_of_mem_alphabet {c : Char} (hc : c ∈ Bech32.alphabet) :
  c.toNat < 0x10000
  := by
  have hall : (Bech32.alphabet.all fun c => decide (c.toNat < 0x10000)) = true := by decide
  apply of_decide_eq_true (List.all_eq_true.mp hall c hc)

/-- The last six characters of an address are its checksum. -/
theorem drop_address (hrp : List Char) (payload : List UInt8) {checksum : List Char}
    (hlength : checksum.length = 6) :
  (Bech32.address hrp payload checksum).drop ((Bech32.address hrp payload checksum).length - 6)
    = checksum
  := by
  have hsplit : Bech32.address hrp payload checksum
      = (hrp ++ '1' :: (Bech32.groups payload).map Bech32.digit) ++ checksum := by
    simp [Bech32.address]
  rw [hsplit, List.length_append, hlength, Nat.add_sub_cancel, List.drop_left]

end Written

/-! ### Addresses -/

theorem mapM_eq_some {α β : Type} {f : α → Option β} {g : α → β} {xs : List α}
    (h : ∀ x ∈ xs, f x = some (g x)) :
  xs.mapM f = some (xs.map g)
  := by
  induction xs with
  | nil => rfl
  | cons x xs ih =>
      rw [List.mapM_cons, h x List.mem_cons_self, ih fun y hy => h y (List.mem_cons_of_mem x hy)]
      rfl

/-- The part of an address between its prefix and its checksum. -/
theorem slice_address (hrp : List Char) (payload : List UInt8) {checksum : List Char}
    (hlength : checksum.length = 6) :
  ((Bech32.address hrp payload checksum).take
      ((Bech32.address hrp payload checksum).length - 6)).drop (hrp.length + 1)
    = (Bech32.groups payload).map Bech32.digit
  := by
  have hsplit : Bech32.address hrp payload checksum
      = (hrp ++ ['1']) ++ (Bech32.groups payload).map Bech32.digit ++ checksum := by
    simp [Bech32.address]
  rw [hsplit, List.length_append, hlength, Nat.add_sub_cancel, List.take_left,
    List.drop_left' (by simp)]

/-- The separator does not come again in an address. -/
theorem separator_not_mem_data (payload : List UInt8) {checksum : List Char}
    (hchecksum : ∀ c ∈ checksum, c ∈ Bech32.alphabet) :
  '1' ∉ (Bech32.groups payload).map Bech32.digit ++ checksum
  := by
  intro hc
  apply Bech32.separator_not_mem_alphabet
  rcases List.mem_append.mp hc with hc | hc
  · obtain ⟨n, hn, heq⟩ := List.mem_map.mp hc
    rw [← heq]
    apply Bech32.digit_mem_alphabet n (Bech32.groups_lt payload n hn)
  · apply hchecksum _ hc

/-- The explorer finds the groups by their characters. -/
theorem mapM_digit {vs : List ℕ} (hvs : ∀ v ∈ vs, v < 32) :
  ((vs.map Bech32.digit).map some).mapM group = some vs
  := by
  rw [List.map_map, List.mapM_map]
  conv => rhs; rw [← List.map_id vs]
  apply mapM_eq_some
  intro v hv
  have hlt := hvs v hv
  simp only [Function.comp_apply, group, Bech32.idxOf_digit v hlt, Bech32.length_alphabet]
  rw [if_pos hlt, id_eq]

/-- An address is decoded to the bytes that it stands for. -/
theorem bech32AddrToHex_address (hrp : List Char) (payload : List UInt8) {checksum : List Char}
    (hlength : checksum.length = 6) (hchecksum : ∀ c ∈ checksum, c ∈ Bech32.alphabet) :
  bech32AddrToHex (Bech32.address hrp payload checksum) = some (Hex.encode payload)
  := by
  have hsep := separator_not_mem_data payload hchecksum
  have hgroups := Bech32.groups_lt payload
  have hlast : ∀ c ∈ (Bech32.address hrp payload checksum).drop
      ((Bech32.address hrp payload checksum).length - 6), c.toNat < 0x10000 := by
    rw [Written.drop_address hrp payload hlength]
    intro c hc
    apply Written.toNat_of_mem_alphabet (hchecksum c hc)
  have hplace : Js.afterLast '1' (Bech32.address hrp payload checksum) = hrp.length + 1 := by
    rw [Bech32.address, Js.afterLast_append hsep]
  rw [bech32AddrToHex, Written.dataChars_encode hlast, hplace, slice_address hrp payload hlength,
    mapM_digit hgroups]
  simp only [Option.bind_eq_bind, Option.bind_some]
  rw [convertBits_eq 0 (by decide) hgroups, bytesToHex_eq, Nat.pow_zero, Nat.mod_one,
    Bech32.ungroup_groups]

end Explorer
