import Mathlib.Data.List.Basic
import Mathlib.Data.Option.Basic
import Mathlib.Order.Basic

/-!
# UTF-8

`Utf8.encode` writes a text as octets. `Utf8.decode` is the decoder of the Encoding
Standard, one octet at a time: between octets it holds the code point assembled so far,
the number of octets owed and the bounds of the next one. An octet out of bounds ends the
pending sequence in an error and is read again from the start, so every error stands for
a maximal subpart.

* `decode?` is the strict reading, and the inverse of `encode` (`decode?_eq_some_iff`).
* `decodeLossy` puts U+FFFD for every error. Where its result holds no U+FFFD, the octets
  were the encoding of the result (`eq_encode_of_decodeLossy`).
* `latin1` reads every octet as one character. Octets are the encoding of their own Latin-1
  reading exactly when they are ASCII (`eq_encode_latin1_iff`).
* Texts in order are encoded in order (`encode_lt_encode_iff`).
-/

namespace Utf8

/-! ### Encoding -/

/-- The octets of a text. -/
def encode (cs : List Char) : List UInt8 :=
  cs.flatMap String.utf8EncodeChar

@[simp]
theorem encode_nil :
  encode [] = []
  := rfl

@[simp]
theorem encode_cons (c : Char) (cs : List Char) :
  encode (c :: cs) = String.utf8EncodeChar c ++ encode cs
  := rfl

@[simp]
theorem encode_append (cs ds : List Char) :
  encode (cs ++ ds) = encode cs ++ encode ds
  := List.flatMap_append

/-! ### The decoder -/

/-- A sequence begun: the code point so far, the number of octets owed, and the least and
the greatest octet that may come next. -/
structure Pending where
  codePoint : ℕ
  needed : ℕ
  lower : ℕ
  upper : ℕ

/-- What reading an octet gives: a character, an error, or a pending sequence. -/
inductive Step where
  | emit (c : Char)
  | error
  | wait (p : Pending)

/-- Reading an octet between sequences. -/
def lead (b : UInt8) : Step :=
  let n := b.toNat
  if n ≤ 0x7F then .emit (Char.ofNat n)
  else if 0xC2 ≤ n ∧ n ≤ 0xDF then .wait ⟨n - 0xC0, 1, 0x80, 0xBF⟩
  else if 0xE0 ≤ n ∧ n ≤ 0xEF then
    .wait ⟨n - 0xE0, 2, if n = 0xE0 then 0xA0 else 0x80, if n = 0xED then 0x9F else 0xBF⟩
  else if 0xF0 ≤ n ∧ n ≤ 0xF4 then
    .wait ⟨n - 0xF0, 3, if n = 0xF0 then 0x90 else 0x80, if n = 0xF4 then 0x8F else 0xBF⟩
  else .error

/-- Whether an octet may continue a pending sequence. -/
def Pending.Admits (p : Pending) (b : UInt8) : Prop :=
  p.lower ≤ b.toNat ∧ b.toNat ≤ p.upper

instance (p : Pending) (b : UInt8) : Decidable (p.Admits b) :=
  inferInstanceAs (Decidable (_ ∧ _))

/-- Reading an octet that continues a pending sequence. -/
def Pending.accept (p : Pending) (b : UInt8) : Step :=
  if p.needed = 1 then .emit (Char.ofNat (p.codePoint * 64 + b.toNat % 64))
  else .wait ⟨p.codePoint * 64 + b.toNat % 64, p.needed - 1, 0x80, 0xBF⟩

/-- Reading an octet in any position. An octet that cannot continue the pending sequence
ends it in an error, and is read again from the start. -/
def read : Option Pending → UInt8 → List (Option Char) × Step
  | none, b => ([], lead b)
  | some p, b => if p.Admits b then ([], p.accept b) else ([none], lead b)

/-- The characters of a sequence of octets, an error being `none`. -/
def decode : Option Pending → List UInt8 → List (Option Char)
  | none, [] => []
  | some _, [] => [none]
  | p, b :: bs =>
      (read p b).1 ++
        match (read p b).2 with
        | .emit c => some c :: decode none bs
        | .error => none :: decode none bs
        | .wait p' => decode (some p') bs

/-- The text the octets encode, if they are well formed. -/
def decode? (bs : List UInt8) : Option (List Char) :=
  (decode none bs).allSome

/-- The replacement character. -/
def replacement : Char := '\uFFFD'

/-- The text of the octets, with U+FFFD for every error. -/
def decodeLossy (bs : List UInt8) : List Char :=
  (decode none bs).map (·.getD replacement)

/-- Every octet as the character with that code point. -/
def latin1 (bs : List UInt8) : List Char :=
  bs.map (fun b => Char.ofNat b.toNat)

/-! ### Steps of the decoder -/

@[simp]
theorem decode_nil :
  decode none [] = []
  := rfl

theorem decode_of_emit {b : UInt8} {c : Char} (h : lead b = .emit c) (bs : List UInt8) :
  decode none (b :: bs) = some c :: decode none bs
  := by
  simp [decode, read, h]

theorem decode_of_error {b : UInt8} (h : lead b = .error) (bs : List UInt8) :
  decode none (b :: bs) = none :: decode none bs
  := by
  simp [decode, read, h]

theorem decode_of_wait {b : UInt8} {p : Pending} (h : lead b = .wait p) (bs : List UInt8) :
  decode none (b :: bs) = decode (some p) bs
  := by
  simp [decode, read, h]

theorem decode_some_last {p : Pending} {b : UInt8} (h : p.Admits b) (hp : p.needed = 1)
    (bs : List UInt8) :
  decode (some p) (b :: bs)
    = some (Char.ofNat (p.codePoint * 64 + b.toNat % 64)) :: decode none bs
  := by
  simp [decode, read, h, Pending.accept, hp]

theorem decode_some_next {p : Pending} {b : UInt8} (h : p.Admits b) (hp : p.needed ≠ 1)
    (bs : List UInt8) :
  decode (some p) (b :: bs)
    = decode (some ⟨p.codePoint * 64 + b.toNat % 64, p.needed - 1, 0x80, 0xBF⟩) bs
  := by
  simp [decode, read, h, Pending.accept, hp]

/-- A pending sequence that decodes without error is continued by its next octet. -/
theorem admits_of_decode_some {p : Pending} {bs : List UInt8}
    (h : none ∉ decode (some p) bs) :
  ∃ b bs', bs = b :: bs' ∧ p.Admits b
  := by
  cases bs with
  | nil => simp [decode] at h
  | cons b bs' =>
      use b, bs', rfl
      by_contra hb
      simp [decode, read, hb] at h

theorem lead_one {b : UInt8} (h : b.toNat ≤ 0x7F) :
  lead b = .emit (Char.ofNat b.toNat)
  := by
  simp [lead, h]

theorem lead_two {b : UInt8} (h : 0xC2 ≤ b.toNat) (h' : b.toNat ≤ 0xDF) :
  lead b = .wait ⟨b.toNat - 0xC0, 1, 0x80, 0xBF⟩
  := by
  have h₁ : ¬ b.toNat ≤ 0x7F := by omega
  simp [lead, h₁, h, h']

theorem lead_three {b : UInt8} (h : 0xE0 ≤ b.toNat) (h' : b.toNat ≤ 0xEF) :
  lead b = .wait ⟨b.toNat - 0xE0, 2, if b.toNat = 0xE0 then 0xA0 else 0x80,
    if b.toNat = 0xED then 0x9F else 0xBF⟩
  := by
  have h₁ : ¬ b.toNat ≤ 0x7F := by omega
  have h₂ : ¬ b.toNat ≤ 0xDF := by omega
  simp [lead, h₁, h₂, h, h']

theorem lead_four {b : UInt8} (h : 0xF0 ≤ b.toNat) (h' : b.toNat ≤ 0xF4) :
  lead b = .wait ⟨b.toNat - 0xF0, 3, if b.toNat = 0xF0 then 0x90 else 0x80,
    if b.toNat = 0xF4 then 0x8F else 0xBF⟩
  := by
  have h₁ : ¬ b.toNat ≤ 0x7F := by omega
  have h₂ : ¬ b.toNat ≤ 0xDF := by omega
  have h₃ : ¬ b.toNat ≤ 0xEF := by omega
  simp [lead, h₁, h₂, h₃, h, h']

/-! ### Decoding an encoded text -/

theorem toNat_ofNat_of_lt {n : ℕ} (h : n < 256) :
  (UInt8.ofNat n).toNat = n
  := by
  rw [UInt8.toNat_ofNat']
  omega

theorem toNat_char_cases (c : Char) :
  c.toNat < 0xD800 ∨ (0xDFFF < c.toNat ∧ c.toNat < 0x110000)
  := c.valid

/-- The decoder reads the octets of a character as that character. -/
theorem decode_utf8EncodeChar_append (c : Char) (bs : List UInt8) :
  decode none (String.utf8EncodeChar c ++ bs) = some c :: decode none bs
  := by
  have hc : c.val.toNat = c.toNat := rfl
  have hcases := toNat_char_cases c
  simp only [String.utf8EncodeChar, hc]
  split_ifs with h₁ h₂ h₃
  · have hb : (UInt8.ofNat c.toNat).toNat = c.toNat := toNat_ofNat_of_lt (by omega)
    rw [List.singleton_append, decode_of_emit (lead_one (by omega)), hb, Char.ofNat_toNat]
  · have hb₀ := toNat_ofNat_of_lt (n := c.toNat / 64 % 32 + 192) (by omega)
    have hb₁ := toNat_ofNat_of_lt (n := c.toNat % 64 + 128) (by omega)
    have hsum : (c.toNat / 64 % 32 + 192 - 192) * 64 + (c.toNat % 64 + 128) % 64 = c.toNat := by
      omega
    simp only [List.cons_append, List.nil_append]
    rw [decode_of_wait (lead_two (by omega) (by omega)), decode_some_last _ rfl]
    · simp only [hb₀, hb₁, hsum, Char.ofNat_toNat]
    · simp only [Pending.Admits]
      omega
  · have hb₀ := toNat_ofNat_of_lt (n := c.toNat / 4096 % 16 + 224) (by omega)
    have hb₁ := toNat_ofNat_of_lt (n := c.toNat / 64 % 64 + 128) (by omega)
    have hb₂ := toNat_ofNat_of_lt (n := c.toNat % 64 + 128) (by omega)
    have hsum : ((c.toNat / 4096 % 16 + 224 - 224) * 64 + (c.toNat / 64 % 64 + 128) % 64) * 64
        + (c.toNat % 64 + 128) % 64 = c.toNat := by
      omega
    simp only [List.cons_append, List.nil_append]
    rw [decode_of_wait (lead_three (by omega) (by omega)), decode_some_next,
      decode_some_last _ rfl]
    · simp only [hb₀, hb₁, hb₂, hsum, Char.ofNat_toNat]
    · simp only [Pending.Admits]
      omega
    · simp only [Pending.Admits, hb₀, hb₁]
      split_ifs
      all_goals omega
    · simp
  · have hb₀ := toNat_ofNat_of_lt (n := c.toNat / 262144 % 8 + 240) (by omega)
    have hb₁ := toNat_ofNat_of_lt (n := c.toNat / 4096 % 64 + 128) (by omega)
    have hb₂ := toNat_ofNat_of_lt (n := c.toNat / 64 % 64 + 128) (by omega)
    have hb₃ := toNat_ofNat_of_lt (n := c.toNat % 64 + 128) (by omega)
    have hsum : (((c.toNat / 262144 % 8 + 240 - 240) * 64 + (c.toNat / 4096 % 64 + 128) % 64) * 64
        + (c.toNat / 64 % 64 + 128) % 64) * 64 + (c.toNat % 64 + 128) % 64 = c.toNat := by
      omega
    simp only [List.cons_append, List.nil_append]
    rw [decode_of_wait (lead_four (by omega) (by omega)), decode_some_next, decode_some_next,
      decode_some_last _ rfl]
    · simp only [hb₀, hb₁, hb₂, hb₃, hsum, Char.ofNat_toNat]
    · simp only [Pending.Admits]
      omega
    · simp only [Pending.Admits]
      omega
    · simp
    · simp only [Pending.Admits, hb₀, hb₁]
      split_ifs
      all_goals omega
    · simp

theorem decode_encode_append (cs : List Char) (bs : List UInt8) :
  decode none (encode cs ++ bs) = cs.map some ++ decode none bs
  := by
  induction cs with
  | nil => rfl
  | cons c cs ih =>
      rw [encode_cons, List.append_assoc, decode_utf8EncodeChar_append, ih, List.map_cons,
        List.cons_append]

theorem decode_encode (cs : List Char) :
  decode none (encode cs) = cs.map some
  := by
  simpa using decode_encode_append cs []

/-! ### The octets of a decoded text -/

theorem toNat_ofNat_of_valid {n : ℕ} (h : n.isValidChar) :
  (Char.ofNat n).val.toNat = n
  := by
  rw [Char.ofNat, dif_pos h]
  rfl

/-- Two octets that decode to a character are its encoding. -/
theorem utf8EncodeChar_two {a b : UInt8} (ha : 0xC2 ≤ a.toNat) (ha' : a.toNat ≤ 0xDF)
    (hb : 0x80 ≤ b.toNat) (hb' : b.toNat ≤ 0xBF) :
  String.utf8EncodeChar (Char.ofNat ((a.toNat - 0xC0) * 64 + b.toNat % 64)) = [a, b]
  := by
  simp only [String.utf8EncodeChar]
  rw [toNat_ofNat_of_valid (by left; omega), if_neg (by omega), if_pos (by omega)]
  congr 1
  · apply UInt8.toNat_inj.mp
    rw [toNat_ofNat_of_lt] <;> omega
  · congr 1
    apply UInt8.toNat_inj.mp
    rw [toNat_ofNat_of_lt] <;> omega

/-- Three octets that decode to a character are its encoding. -/
theorem utf8EncodeChar_three {a b c : UInt8} (ha : 0xE0 ≤ a.toNat) (ha' : a.toNat ≤ 0xEF)
    (hb : (if a.toNat = 0xE0 then 0xA0 else 0x80) ≤ b.toNat)
    (hb' : b.toNat ≤ if a.toNat = 0xED then 0x9F else 0xBF)
    (hc : 0x80 ≤ c.toNat) (hc' : c.toNat ≤ 0xBF) :
  String.utf8EncodeChar
      (Char.ofNat (((a.toNat - 0xE0) * 64 + b.toNat % 64) * 64 + c.toNat % 64)) = [a, b, c]
  := by
  have hb₁ : 0x80 ≤ b.toNat ∧ b.toNat ≤ 0xBF ∧ (a.toNat = 0xE0 → 0xA0 ≤ b.toNat) ∧
      (a.toNat = 0xED → b.toNat ≤ 0x9F) := by
    split_ifs at hb hb' <;> omega
  have hvalid : (((a.toNat - 0xE0) * 64 + b.toNat % 64) * 64 + c.toNat % 64).isValidChar := by
    unfold Nat.isValidChar
    omega
  simp only [String.utf8EncodeChar]
  rw [toNat_ofNat_of_valid hvalid, if_neg (by omega), if_neg (by omega), if_pos (by omega)]
  congr 1
  · apply UInt8.toNat_inj.mp
    rw [toNat_ofNat_of_lt] <;> omega
  · congr 1
    · apply UInt8.toNat_inj.mp
      rw [toNat_ofNat_of_lt] <;> omega
    · congr 1
      apply UInt8.toNat_inj.mp
      rw [toNat_ofNat_of_lt] <;> omega

/-- Four octets that decode to a character are its encoding. -/
theorem utf8EncodeChar_four {a b c d : UInt8} (ha : 0xF0 ≤ a.toNat) (ha' : a.toNat ≤ 0xF4)
    (hb : (if a.toNat = 0xF0 then 0x90 else 0x80) ≤ b.toNat)
    (hb' : b.toNat ≤ if a.toNat = 0xF4 then 0x8F else 0xBF)
    (hc : 0x80 ≤ c.toNat) (hc' : c.toNat ≤ 0xBF) (hd : 0x80 ≤ d.toNat) (hd' : d.toNat ≤ 0xBF) :
  String.utf8EncodeChar
      (Char.ofNat ((((a.toNat - 0xF0) * 64 + b.toNat % 64) * 64 + c.toNat % 64) * 64
        + d.toNat % 64)) = [a, b, c, d]
  := by
  have hb₁ : 0x80 ≤ b.toNat ∧ b.toNat ≤ 0xBF ∧ (a.toNat = 0xF0 → 0x90 ≤ b.toNat) ∧
      (a.toNat = 0xF4 → b.toNat ≤ 0x8F) := by
    split_ifs at hb hb' <;> omega
  have hvalid : ((((a.toNat - 0xF0) * 64 + b.toNat % 64) * 64 + c.toNat % 64) * 64
      + d.toNat % 64).isValidChar := by
    unfold Nat.isValidChar
    omega
  simp only [String.utf8EncodeChar]
  rw [toNat_ofNat_of_valid hvalid, if_neg (by omega), if_neg (by omega), if_neg (by omega)]
  congr 1
  · apply UInt8.toNat_inj.mp
    rw [toNat_ofNat_of_lt] <;> omega
  · congr 1
    · apply UInt8.toNat_inj.mp
      rw [toNat_ofNat_of_lt] <;> omega
    · congr 1
      · apply UInt8.toNat_inj.mp
        rw [toNat_ofNat_of_lt] <;> omega
      · congr 1
        apply UInt8.toNat_inj.mp
        rw [toNat_ofNat_of_lt] <;> omega

/-- Octets that begin with a sequence decoding without error begin with the encoding of a
character, and the decoder goes on after it. -/
theorem exists_char_of_decode_cons {b : UInt8} {bs : List UInt8}
    (h : none ∉ decode none (b :: bs)) :
  ∃ c rest, b :: bs = String.utf8EncodeChar c ++ rest
  := by
  rcases Nat.lt_or_ge b.toNat 0x80 with h₁ | h₁
  · use Char.ofNat b.toNat, bs
    simp only [String.utf8EncodeChar]
    rw [toNat_ofNat_of_valid (by left; omega), if_pos (by omega), UInt8.ofNat_toNat]
    rfl
  rcases Nat.lt_or_ge b.toNat 0xC2 with h₂ | h₂
  · rw [decode_of_error] at h
    · simp at h
    · simp only [lead]
      rw [if_neg (by omega), if_neg (by omega), if_neg (by omega), if_neg (by omega)]
  rcases Nat.lt_or_ge b.toNat 0xE0 with h₃ | h₃
  · rw [decode_of_wait (lead_two h₂ (by omega))] at h
    obtain ⟨b₁, bs₁, rfl, hb₁⟩ := admits_of_decode_some h
    use Char.ofNat ((b.toNat - 0xC0) * 64 + b₁.toNat % 64), bs₁
    rw [utf8EncodeChar_two h₂ (by omega) hb₁.1 hb₁.2]
    rfl
  rcases Nat.lt_or_ge b.toNat 0xF0 with h₄ | h₄
  · rw [decode_of_wait (lead_three h₃ (by omega))] at h
    obtain ⟨b₁, bs₁, rfl, hb₁⟩ := admits_of_decode_some h
    rw [decode_some_next hb₁ (by simp)] at h
    obtain ⟨b₂, bs₂, rfl, hb₂⟩ := admits_of_decode_some h
    use Char.ofNat (((b.toNat - 0xE0) * 64 + b₁.toNat % 64) * 64 + b₂.toNat % 64), bs₂
    rw [utf8EncodeChar_three h₃ (by omega) hb₁.1 hb₁.2 hb₂.1 hb₂.2]
    rfl
  rcases Nat.lt_or_ge b.toNat 0xF5 with h₅ | h₅
  · rw [decode_of_wait (lead_four h₄ (by omega))] at h
    obtain ⟨b₁, bs₁, rfl, hb₁⟩ := admits_of_decode_some h
    rw [decode_some_next hb₁ (by simp)] at h
    obtain ⟨b₂, bs₂, rfl, hb₂⟩ := admits_of_decode_some h
    rw [decode_some_next hb₂ (by simp)] at h
    obtain ⟨b₃, bs₃, rfl, hb₃⟩ := admits_of_decode_some h
    use Char.ofNat ((((b.toNat - 0xF0) * 64 + b₁.toNat % 64) * 64 + b₂.toNat % 64) * 64
      + b₃.toNat % 64), bs₃
    rw [utf8EncodeChar_four h₄ (by omega) hb₁.1 hb₁.2 hb₂.1 hb₂.2 hb₃.1 hb₃.2]
    rfl
  · rw [decode_of_error] at h
    · simp at h
    · simp only [lead]
      rw [if_neg (by omega), if_neg (by omega), if_neg (by omega), if_neg (by omega)]

/-- Octets that decode without error are the encoding of a text. -/
theorem exists_encode_of_decode {bs : List UInt8} (h : none ∉ decode none bs) :
  ∃ cs, bs = encode cs
  := by
  induction hn : bs.length using Nat.strongRecOn generalizing bs with
  | _ n ih =>
      cases bs with
      | nil => use []; rfl
      | cons b bs =>
          obtain ⟨c, rest, hrest⟩ := exists_char_of_decode_cons h
          rw [hrest, decode_utf8EncodeChar_append] at h
          have hlen : rest.length < n := by
            have hlen := congrArg List.length hrest
            rw [List.length_append, String.length_utf8EncodeChar, hn] at hlen
            have := Char.utf8Size_pos c
            omega
          obtain ⟨cs, rfl⟩ := ih rest.length hlen (by simpa using h) rfl
          use c :: cs
          rw [hrest, encode_cons]

/-! ### The strict and the lossy reading -/

theorem encode_injective :
  Function.Injective encode
  := by
  intro cs ds h
  have hdec := congrArg (decode none) h
  rw [decode_encode, decode_encode] at hdec
  apply List.map_injective_iff.mpr (Option.some_injective Char) hdec

theorem allSome_eq_some_iff {α : Type} {xs : List (Option α)} {ys : List α} :
  xs.allSome = some ys ↔ xs = ys.map some
  := by
  induction xs generalizing ys with
  | nil => cases ys <;> simp [List.allSome]
  | cons x xs ih =>
      simp only [List.allSome, List.mapM_cons, id_eq] at ih ⊢
      cases x with
      | none => cases ys <;> simp
      | some x =>
          cases ys with
          | nil => cases List.mapM id xs <;> simp
          | cons y ys =>
              simp only [List.map_cons, List.cons.injEq, Option.some.injEq, ← ih]
              cases List.mapM id xs <;> simp

/-- The strict reading is the inverse of the encoding. -/
theorem decode?_eq_some_iff {bs : List UInt8} {cs : List Char} :
  decode? bs = some cs ↔ bs = encode cs
  := by
  rw [decode?, allSome_eq_some_iff]
  constructor
  · intro h
    have hnone : none ∉ decode none bs := by simp [h]
    obtain ⟨ds, rfl⟩ := exists_encode_of_decode hnone
    rw [decode_encode] at h
    rw [List.map_injective_iff.mpr (Option.some_injective Char) h]
  · rintro rfl
    apply decode_encode

@[simp]
theorem decode?_encode (cs : List Char) :
  decode? (encode cs) = some cs
  := decode?_eq_some_iff.mpr rfl

@[simp]
theorem decodeLossy_encode (cs : List Char) :
  decodeLossy (encode cs) = cs
  := by
  simp [decodeLossy, decode_encode, Function.comp_def]

/-- Octets whose lossy reading holds no U+FFFD are the encoding of that reading. -/
theorem eq_encode_of_decodeLossy {bs : List UInt8} (h : replacement ∉ decodeLossy bs) :
  bs = encode (decodeLossy bs)
  := by
  have hnone : none ∉ decode none bs := by
    intro hmem
    apply h
    apply List.mem_map.mpr
    use none, hmem
    rfl
  obtain ⟨cs, rfl⟩ := exists_encode_of_decode hnone
  rw [decodeLossy_encode]

/-- A text without U+FFFD is the lossy reading of its encoding only. -/
theorem decodeLossy_eq_iff {bs : List UInt8} {cs : List Char} (h : replacement ∉ cs) :
  decodeLossy bs = cs ↔ bs = encode cs
  := by
  constructor
  · rintro rfl
    apply eq_encode_of_decodeLossy h
  · rintro rfl
    apply decodeLossy_encode

/-- The octet FF is read as U+FFFD between two texts. -/
theorem decodeLossy_encode_error (cs ds : List Char) :
  decodeLossy (encode cs ++ 0xFF :: encode ds) = cs ++ replacement :: ds
  := by
  have herror : lead 0xFF = .error := rfl
  rw [decodeLossy, decode_encode_append, decode_of_error herror, decode_encode]
  simp [Function.comp_def]

/-- A text is the lossy reading of its encoding only, exactly when it is without U+FFFD. -/
theorem decodeLossy_unique_iff {cs : List Char} :
  (∀ bs, decodeLossy bs = cs → bs = encode cs) ↔ replacement ∉ cs
  := by
  constructor
  · intro hunique hmem
    obtain ⟨as, ds, rfl⟩ := List.append_of_mem hmem
    have hencode := hunique _ (decodeLossy_encode_error as ds)
    rw [encode_append, encode_cons, List.append_cancel_left_eq] at hencode
    have hhead := congrArg List.head? hencode
    revert hhead
    simp [replacement, String.utf8EncodeChar]
  · intro h bs hbs
    apply (decodeLossy_eq_iff h).mp hbs

/-! ### ASCII and Latin-1 -/

/-- Octets that are ASCII. -/
def IsAscii (bs : List UInt8) : Prop :=
  ∀ b ∈ bs, b.toNat < 0x80

instance (bs : List UInt8) : Decidable (IsAscii bs) :=
  List.decidableBAll (fun b : UInt8 => b.toNat < 0x80) bs

/-- ASCII octets are the encoding of their Latin-1 reading. -/
theorem encode_latin1_of_isAscii {bs : List UInt8} (h : IsAscii bs) :
  encode (latin1 bs) = bs
  := by
  induction bs with
  | nil => rfl
  | cons b bs ih =>
      have hb := h b List.mem_cons_self
      have hbs : IsAscii bs := fun b' hb' => h b' (List.mem_cons_of_mem b hb')
      simp only [latin1, List.map_cons, encode_cons, String.utf8EncodeChar] at ih ⊢
      rw [toNat_ofNat_of_valid (by left; omega), if_pos (by omega), UInt8.ofNat_toNat, ih hbs]
      rfl

theorem length_le_length_encode (cs : List Char) :
  cs.length ≤ (encode cs).length
  := by
  induction cs with
  | nil => apply Nat.le_refl
  | cons c cs ih =>
      have hc := Char.utf8Size_pos c
      simp only [encode_cons, List.length_cons, List.length_append, String.length_utf8EncodeChar]
      omega

/-- A text as long as its encoding is ASCII. -/
theorem isAscii_of_length_encode {cs : List Char} (h : (encode cs).length = cs.length) :
  ∀ c ∈ cs, c.toNat < 0x80
  := by
  induction cs with
  | nil => simp
  | cons c cs ih =>
      have hc := Char.utf8Size_pos c
      have hcs := length_le_length_encode cs
      simp only [encode_cons, List.length_cons, List.length_append,
        String.length_utf8EncodeChar] at h
      have hsize : c.val ≤ 127 := Char.utf8Size_eq_one_iff.mp (by omega)
      intro d hd
      rcases List.mem_cons.mp hd with rfl | hd
      · have : d.val.toNat ≤ 127 := hsize
        show d.val.toNat < 128
        omega
      · apply ih (by omega) d hd

theorem toNat_of_mem_latin1 {bs : List UInt8} {c : Char} (h : c ∈ latin1 bs) :
  c.toNat < 0x100
  := by
  obtain ⟨b, -, rfl⟩ := List.mem_map.mp h
  have hb := b.toNat_lt
  show (Char.ofNat b.toNat).val.toNat < 0x100
  rw [toNat_ofNat_of_valid (by left; omega)]
  omega

theorem replacement_not_mem_latin1 (bs : List UInt8) :
  replacement ∉ latin1 bs
  := by
  intro h
  have := toNat_of_mem_latin1 h
  revert this
  decide

/-- Octets are the encoding of their own Latin-1 reading exactly when they are ASCII. -/
theorem eq_encode_latin1_iff {bs : List UInt8} :
  bs = encode (latin1 bs) ↔ IsAscii bs
  := by
  constructor
  · intro h b hb
    have hlen : (encode (latin1 bs)).length = (latin1 bs).length := by
      rw [← h, latin1, List.length_map]
    have hchar := isAscii_of_length_encode hlen _ (List.mem_map.mpr ⟨b, hb, rfl⟩)
    have hb' := b.toNat_lt
    rwa [Char.toNat, toNat_ofNat_of_valid (by left; omega)] at hchar
  · intro h
    rw [encode_latin1_of_isAscii h]

/-! ### The Latin-1 reading of an encoded text -/

theorem latin1_append (bs bs' : List UInt8) :
  latin1 (bs ++ bs') = latin1 bs ++ latin1 bs'
  := List.map_append

theorem toNat_latin1 (b : UInt8) :
  (Char.ofNat b.toNat).toNat = b.toNat
  := by
  have hb := b.toNat_lt
  apply toNat_ofNat_of_valid
  left
  omega

/-- An ASCII character is encoded as itself. -/
theorem utf8EncodeChar_of_lt {c : Char} (h : c.toNat < 0x80) :
  String.utf8EncodeChar c = [UInt8.ofNat c.toNat]
  := by
  have hc : c.val.toNat = c.toNat := rfl
  rw [String.utf8EncodeChar, hc, if_pos (by omega)]

/-- Any other character is encoded in octets beyond ASCII, the first of them a lead. -/
theorem utf8EncodeChar_of_ge {c : Char} (h : 0x80 ≤ c.toNat) :
  ∃ b bs, String.utf8EncodeChar c = b :: bs ∧ 0xC0 ≤ b.toNat ∧ ∀ b' ∈ bs, 0x80 ≤ b'.toNat
  := by
  have hc : c.val.toNat = c.toNat := rfl
  have htrail (n : ℕ) : 0x80 ≤ (UInt8.ofNat (n % 64 + 128)).toNat := by
    rw [toNat_ofNat_of_lt (by omega)]
    omega
  simp only [String.utf8EncodeChar, hc]
  rw [if_neg (by omega)]
  split_ifs
  · refine ⟨_, _, rfl, ?_, by simpa using htrail _⟩
    rw [toNat_ofNat_of_lt (by omega)]
    omega
  · refine ⟨_, _, rfl, ?_, by simpa using ⟨htrail _, htrail _⟩⟩
    rw [toNat_ofNat_of_lt (by omega)]
    omega
  · refine ⟨_, _, rfl, ?_, by simpa using ⟨htrail _, htrail _, htrail _⟩⟩
    rw [toNat_ofNat_of_lt (by omega)]
    omega

/-- An ASCII text is the Latin-1 reading of its encoding. -/
theorem latin1_encode_of_ascii {cs : List Char} (h : ∀ c ∈ cs, c.toNat < 0x80) :
  latin1 (encode cs) = cs
  := by
  induction cs with
  | nil => rfl
  | cons c cs ih =>
      have hc := h c List.mem_cons_self
      rw [encode_cons, latin1_append, utf8EncodeChar_of_lt hc,
        ih fun d hd => h d (List.mem_cons_of_mem c hd), latin1, List.map_singleton,
        toNat_ofNat_of_lt (by omega), Char.ofNat_toNat, List.singleton_append]

/-- The characters of a text as octets are its encoding when the text is ASCII. -/
theorem map_ofNat_eq_encode_iff {cs : List Char} :
  cs.map (fun c => UInt8.ofNat c.toNat) = encode cs ↔ ∀ c ∈ cs, c.toNat < 0x80
  := by
  constructor
  · intro h
    apply isAscii_of_length_encode
    rw [← h, List.length_map]
  · intro h
    induction cs with
    | nil => rfl
    | cons c cs ih =>
        rw [encode_cons, utf8EncodeChar_of_lt (h c List.mem_cons_self), List.map_cons,
          ih fun d hd => h d (List.mem_cons_of_mem c hd), List.singleton_append]

/-- The ASCII characters in the Latin-1 reading of an encoded text are those of the text. -/
theorem mem_of_mem_latin1_encode {cs : List Char} {c : Char} (h : c ∈ latin1 (encode cs)) :
  c ∈ cs ∨ 0x80 ≤ c.toNat
  := by
  induction cs with
  | nil => simp [latin1] at h
  | cons d cs ih =>
      rw [encode_cons, latin1_append] at h
      rcases List.mem_append.mp h with h | h
      · obtain ⟨b, hb, rfl⟩ := List.mem_map.mp h
        rw [toNat_latin1]
        rcases Nat.lt_or_ge d.toNat 0x80 with hd | hd
        · left
          rw [utf8EncodeChar_of_lt hd, List.mem_singleton] at hb
          rw [hb, toNat_ofNat_of_lt (by omega), Char.ofNat_toNat]
          apply List.mem_cons_self
        · right
          obtain ⟨b₀, bs, hbs, hb₀, htrail⟩ := utf8EncodeChar_of_ge hd
          rw [hbs] at hb
          rcases List.mem_cons.mp hb with rfl | hb
          · omega
          · apply htrail b hb
      · rcases ih h with h | h
        · left
          apply List.mem_cons_of_mem _ h
        · right
          apply h

/-! ### Order -/

/-- The octets of the lesser of two characters come first in order. -/
theorem utf8EncodeChar_append_lt {c d : Char} (h : c < d) (bs bs' : List UInt8) :
  String.utf8EncodeChar c ++ bs < String.utf8EncodeChar d ++ bs'
  := by
  have hc : c.val.toNat = c.toNat := rfl
  have hd : d.val.toNat = d.toNat := rfl
  have hlt : c.toNat < d.toNat := h
  have hmax := toNat_char_cases c
  have hmax := toNat_char_cases d
  simp only [String.utf8EncodeChar, hc, hd]
  split_ifs
  all_goals
    -- the lengths and the first octets decide, or the lengths contradict `c < d`
    first
    | omega
    | simp only [List.cons_append, List.nil_append, List.cons_lt_cons_iff, UInt8.lt_iff_toNat_lt,
        ← UInt8.toNat_inj, UInt8.toNat_ofNat']
      simp (disch := omega) only [Nat.mod_eq_of_lt]
      omega

theorem encode_cons_ne_nil (c : Char) (cs : List Char) :
  encode (c :: cs) ≠ []
  := by
  have := length_le_length_encode (c :: cs)
  intro h
  simp [h] at this

theorem append_lt_append_left (p : List UInt8) {bs bs' : List UInt8} :
  p ++ bs < p ++ bs' ↔ bs < bs'
  := by
  induction p with
  | nil => simp
  | cons b p ih => simp [ih]

/-- The order of octets on encoded texts is the order of the texts. -/
theorem encode_lt_encode_iff (cs ds : List Char) :
  encode cs < encode ds ↔ cs < ds
  := by
  induction cs generalizing ds with
  | nil =>
      cases ds with
      | nil => simp
      | cons d ds =>
          obtain ⟨b, bs, h⟩ := List.exists_cons_of_ne_nil (encode_cons_ne_nil d ds)
          simp [h]
  | cons c cs ih =>
      cases ds with
      | nil => simp
      | cons d ds =>
          rw [encode_cons, encode_cons, List.cons_lt_cons_iff, ← ih]
          rcases Nat.lt_trichotomy c.toNat d.toNat with h | h | h
          · have hlt : c < d := h
            simp [hlt, utf8EncodeChar_append_lt hlt]
          · obtain rfl := Char.toNat_inj.mp h
            simp [append_lt_append_left]
          · have hlt : d < c := h
            have hne : c ≠ d := by
              rintro rfl
              apply Nat.lt_irrefl _ h
            have hnlt : ¬ c < d := fun h' => Nat.lt_asymm h h'
            have := List.lt_asymm (utf8EncodeChar_append_lt hlt (encode ds) (encode cs))
            simp [hne, hnlt, this]

end Utf8
