import InterchainEvents.Text.Utf8

/-!
# UTF-16

Texts as sequences of 16-bit code units. A sequence of code units may hold surrogates that
pair with nothing; `Utf16.decode` marks each of them as an error. A sequence decodes without
error exactly when it is the encoding of a text (`valid_encode`,
`encode_text_of_valid`).
-/

namespace Utf16

/-! ### Encoding -/

/-- The code units of a character. -/
def encodeChar (c : Char) : List UInt16 :=
  if c.toNat < 0x10000 then [UInt16.ofNat c.toNat]
  else [UInt16.ofNat (0xD800 + (c.toNat - 0x10000) / 0x400),
    UInt16.ofNat (0xDC00 + (c.toNat - 0x10000) % 0x400)]

/-- The code units of a text. -/
def encode (cs : List Char) : List UInt16 :=
  cs.flatMap encodeChar

@[simp]
theorem encode_nil :
  encode [] = []
  := rfl

@[simp]
theorem encode_cons (c : Char) (cs : List Char) :
  encode (c :: cs) = encodeChar c ++ encode cs
  := rfl

theorem encode_append (cs ds : List Char) :
  encode (cs ++ ds) = encode cs ++ encode ds
  := List.flatMap_append

/-- Characters below U+10000 have one code unit each. -/
theorem length_encode {cs : List Char} (h : ∀ c ∈ cs, c.toNat < 0x10000) :
  (encode cs).length = cs.length
  := by
  induction cs with
  | nil => rfl
  | cons c cs ih =>
      rw [encode_cons, encodeChar, if_pos (h c List.mem_cons_self),
        List.singleton_append, List.length_cons, List.length_cons,
        ih fun d hd => h d (List.mem_cons_of_mem c hd)]

/-! ### Decoding -/

/-- Whether a code unit is the first half of a pair. -/
def isLead (u : UInt16) : Bool :=
  decide (0xD800 ≤ u.toNat ∧ u.toNat < 0xDC00)

/-- Whether a code unit is the second half of a pair. -/
def isTrail (u : UInt16) : Bool :=
  decide (0xDC00 ≤ u.toNat ∧ u.toNat < 0xE000)

/-- The character of a pair. -/
def pair (u v : UInt16) : Char :=
  Char.ofNat (0x10000 + (u.toNat - 0xD800) * 0x400 + (v.toNat - 0xDC00))

/-- The characters of a sequence of code units, an unpaired surrogate being `none`. -/
def decode : List UInt16 → List (Option Char)
  | [] => []
  | [u] => if isLead u || isTrail u then [none] else [some (Char.ofNat u.toNat)]
  | u :: v :: us =>
      if isLead u then
        if isTrail v then some (pair u v) :: decode us else none :: decode (v :: us)
      else if isTrail u then none :: decode (v :: us)
      else some (Char.ofNat u.toNat) :: decode (v :: us)

/-- Whether every surrogate is paired. -/
def Valid (us : List UInt16) : Prop :=
  none ∉ decode us

instance (us : List UInt16) : Decidable (Valid us) :=
  inferInstanceAs (Decidable (¬ _))

/-- The text of a sequence of code units, with U+FFFD for every unpaired surrogate. -/
def text (us : List UInt16) : List Char :=
  (decode us).map (·.getD Utf8.replacement)

theorem toNat_ofNat_of_lt {n : ℕ} (h : n < 0x10000) :
  (UInt16.ofNat n).toNat = n
  := by
  rw [UInt16.toNat_ofNat']
  omega

theorem decode_cons_of_single {u : UInt16} (hlead : isLead u = false) (htrail : isTrail u = false)
    (us : List UInt16) :
  decode (u :: us) = some (Char.ofNat u.toNat) :: decode us
  := by
  cases us with
  | nil => simp [decode, hlead, htrail]
  | cons v us => simp [decode, hlead, htrail]

/-- The decoder reads the code units of a character as that character. -/
theorem decode_encodeChar_append (c : Char) (us : List UInt16) :
  decode (encodeChar c ++ us) = some c :: decode us
  := by
  have hc := Utf8.toNat_char_cases c
  unfold encodeChar
  split_ifs with h
  · have hu := toNat_ofNat_of_lt h
    rw [List.singleton_append, decode_cons_of_single, hu, Char.ofNat_toNat]
    · simp only [isLead, hu, decide_eq_false_iff_not]
      omega
    · simp only [isTrail, hu, decide_eq_false_iff_not]
      omega
  · have hu := toNat_ofNat_of_lt (n := 0xD800 + (c.toNat - 0x10000) / 0x400) (by omega)
    have hv := toNat_ofNat_of_lt (n := 0xDC00 + (c.toNat - 0x10000) % 0x400) (by omega)
    have hpair : pair (UInt16.ofNat (0xD800 + (c.toNat - 0x10000) / 0x400))
        (UInt16.ofNat (0xDC00 + (c.toNat - 0x10000) % 0x400)) = c := by
      have hsum : 0x10000 + (0xD800 + (c.toNat - 0x10000) / 0x400 - 0xD800) * 0x400
          + (0xDC00 + (c.toNat - 0x10000) % 0x400 - 0xDC00) = c.toNat := by
        omega
      rw [pair, hu, hv, hsum, Char.ofNat_toNat]
    simp only [List.cons_append, List.nil_append, decode]
    rw [if_pos, if_pos, hpair]
    · simp only [isTrail, hv, decide_eq_true_eq]
      omega
    · simp only [isLead, hu, decide_eq_true_eq]
      omega

theorem decode_encode (cs : List Char) :
  decode (encode cs) = cs.map some
  := by
  induction cs with
  | nil => rfl
  | cons c cs ih => rw [encode_cons, decode_encodeChar_append, ih, List.map_cons]

theorem encode_injective :
  Function.Injective encode
  := by
  intro cs ds h
  have hdec := congrArg decode h
  rw [decode_encode, decode_encode] at hdec
  apply List.map_injective_iff.mpr (Option.some_injective Char) hdec

@[simp]
theorem text_encode (cs : List Char) :
  text (encode cs) = cs
  := by
  simp [text, decode_encode, Function.comp_def]

theorem valid_encode (cs : List Char) :
  Valid (encode cs)
  := by
  simp [Valid, decode_encode]

/-- The code unit of a character outside the surrogates and below U+10000 is its own. -/
theorem encodeChar_ofNat {u : UInt16} (hlead : isLead u = false) (htrail : isTrail u = false) :
  encodeChar (Char.ofNat u.toNat) = [u]
  := by
  have hu := u.toNat_lt
  simp only [isLead, isTrail, decide_eq_false_iff_not] at hlead htrail
  have hn : (Char.ofNat u.toNat).toNat = u.toNat := by
    rw [Char.toNat, Utf8.toNat_ofNat_of_valid]
    unfold Nat.isValidChar
    omega
  rw [encodeChar, hn, if_pos (by omega), UInt16.ofNat_toNat]

theorem encodeChar_pair {u v : UInt16} (hlead : isLead u = true) (htrail : isTrail v = true) :
  encodeChar (pair u v) = [u, v]
  := by
  simp only [isLead, isTrail, decide_eq_true_eq] at hlead htrail
  have hn : (pair u v).toNat = 0x10000 + (u.toNat - 0xD800) * 0x400 + (v.toNat - 0xDC00) := by
    rw [Char.toNat, pair, Utf8.toNat_ofNat_of_valid]
    unfold Nat.isValidChar
    omega
  have hu : UInt16.ofNat (0xD800 + ((pair u v).toNat - 0x10000) / 0x400) = u := by
    apply UInt16.toNat_inj.mp
    rw [hn, toNat_ofNat_of_lt] <;> omega
  have hv : UInt16.ofNat (0xDC00 + ((pair u v).toNat - 0x10000) % 0x400) = v := by
    apply UInt16.toNat_inj.mp
    rw [hn, toNat_ofNat_of_lt] <;> omega
  rw [encodeChar, if_neg (by omega), hu, hv]

/-- Code units that decode without error are the encoding of their text. -/
theorem encode_text_of_valid {us : List UInt16} (h : Valid us) :
  encode (text us) = us
  := by
  unfold Valid at h
  unfold text
  induction us using decode.induct with
  | case1 => rfl
  | case2 u hu => simp [decode, hu] at h
  | case3 u hu =>
      simp only [Bool.or_eq_true, not_or, Bool.not_eq_true] at hu
      rw [decode_cons_of_single hu.1 hu.2]
      simp only [decode, List.map_cons, List.map_nil, Option.getD_some, encode_cons, encode_nil,
        List.append_nil]
      apply encodeChar_ofNat hu.1 hu.2
  | case4 u v us hu hv ih =>
      rw [decode, if_pos hu, if_pos hv, List.mem_cons, not_or] at h
      rw [decode, if_pos hu, if_pos hv, List.map_cons, Option.getD_some, encode_cons,
        encodeChar_pair hu hv, ih h.2]
      rfl
  | case5 u v us hu hv => simp [decode, hu, hv] at h
  | case6 u v us hu hu' => simp [decode, hu, hu'] at h
  | case7 u v us hu hu' ih =>
      simp only [Bool.not_eq_true] at hu hu'
      rw [decode_cons_of_single hu hu', List.mem_cons, not_or] at h
      rw [decode_cons_of_single hu hu', List.map_cons, Option.getD_some, encode_cons,
        encodeChar_ofNat hu hu', ih h.2]
      rfl

/-- The text of valid code units is `cs` exactly when they are the code units of `cs`. -/
theorem text_eq_iff_of_valid {us : List UInt16} (h : Valid us) {cs : List Char} :
  text us = cs ↔ us = encode cs
  := by
  constructor
  · rintro rfl
    rw [encode_text_of_valid h]
  · rintro rfl
    apply text_encode

/-! ### Splitting -/

/-- A code unit below the surrogates stands in the encoding of its own character only. -/
theorem not_mem_encodeChar {c d : Char} (hc : c.toNat < 0xD800) (h : c ≠ d) :
  UInt16.ofNat c.toNat ∉ encodeChar d
  := by
  have hd := Utf8.toNat_char_cases d
  have hval := toNat_ofNat_of_lt (n := c.toNat) (by omega)
  intro hmem
  rw [encodeChar] at hmem
  split_ifs at hmem with hlt
  · have heq := congrArg UInt16.toNat (List.mem_singleton.mp hmem)
    rw [hval, toNat_ofNat_of_lt hlt] at heq
    apply h
    rw [← Char.ofNat_toNat c, heq, Char.ofNat_toNat]
  · rcases List.mem_cons.mp hmem with hmem | hmem
    · have heq := congrArg UInt16.toNat hmem
      rw [hval, toNat_ofNat_of_lt (by omega)] at heq
      omega
    · have heq := congrArg UInt16.toNat (List.mem_singleton.mp hmem)
      rw [hval, toNat_ofNat_of_lt (by omega)] at heq
      omega

theorem not_mem_encode {c : Char} (hc : c.toNat < 0xD800) {cs : List Char} (h : c ∉ cs) :
  UInt16.ofNat c.toNat ∉ encode cs
  := by
  intro hmem
  obtain ⟨d, hd, hunit⟩ := List.mem_flatMap.mp hmem
  apply not_mem_encodeChar hc _ hunit
  rintro rfl
  apply h hd

theorem splitOn_append {α : Type} [BEq α] [LawfulBEq α] {x : α} {us : List α} (h : x ∉ us)
    (vs : List α) :
  (us ++ vs).splitOn x = (vs.splitOn x).modifyHead (us ++ ·)
  := by
  induction us with
  | nil => cases hvs : vs.splitOn x <;> simp [hvs]
  | cons u us ih =>
      rw [List.mem_cons, not_or] at h
      rw [List.cons_append, List.splitOn_cons_eq_if_modifyHead, ih h.2,
        if_neg (by simpa using Ne.symm h.1), List.modifyHead_modifyHead]
      rfl

/-- Splitting at a character is splitting at its code unit. -/
theorem splitOn_encode {c : Char} (hc : c.toNat < 0xD800) (cs : List Char) :
  (encode cs).splitOn (UInt16.ofNat c.toNat) = (cs.splitOn c).map encode
  := by
  induction cs with
  | nil => rfl
  | cons d cs ih =>
      obtain ⟨s, ss, hsplit⟩ := List.exists_cons_of_ne_nil (List.splitOn_ne_nil c cs)
      rw [encode_cons, List.splitOn_cons_eq_if_modifyHead]
      by_cases hd : c = d
      · subst hd
        rw [if_pos (by simp), encodeChar, if_pos (by omega), List.singleton_append,
          List.splitOn_cons_eq_if_modifyHead, if_pos (by simp), ih]
        rfl
      · rw [if_neg (by simpa using Ne.symm hd), splitOn_append (not_mem_encodeChar hc hd), ih,
          hsplit]
        rfl

end Utf16
