import Mathlib.Data.Nat.Notation
import Mathlib.Tactic.SplitIfs
import Mathlib.Tactic.Use

/-!
# Hexadecimal

Bytes as pairs of hexadecimal digits, written in lower case and read in either case
(`decode?_encode`).
-/

namespace Hex

/-- The value of a hexadecimal digit. -/
def value (c : Char) : Option ℕ :=
  if '0' ≤ c ∧ c ≤ '9' then some (c.toNat - '0'.toNat)
  else if 'a' ≤ c ∧ c ≤ 'f' then some (c.toNat - 'a'.toNat + 10)
  else if 'A' ≤ c ∧ c ≤ 'F' then some (c.toNat - 'A'.toNat + 10)
  else none

/-- The digits of a byte. -/
def byte (b : UInt8) : List Char :=
  [Nat.digitChar (b.toNat / 16), Nat.digitChar (b.toNat % 16)]

/-- The digits of bytes. -/
def encode (bs : List UInt8) : List Char :=
  bs.flatMap byte

/-- The bytes that digits denote. -/
def decode? : List Char → Option (List UInt8)
  | [] => some []
  | [_] => none
  | c :: d :: cs => do
      let b := UInt8.ofNat (16 * (← value c) + (← value d))
      some (b :: (← decode? cs))

/-- The characters that are digits, and their values. -/
theorem value_cases {c : Char} {n : ℕ} (h : value c = some n) :
  (48 ≤ c.toNat ∧ c.toNat ≤ 57 ∧ n = c.toNat - 48) ∨
    (97 ≤ c.toNat ∧ c.toNat ≤ 102 ∧ n = c.toNat - 97 + 10) ∨
    (65 ≤ c.toNat ∧ c.toNat ≤ 70 ∧ n = c.toNat - 65 + 10)
  := by
  simp only [value, Char.le_def, UInt32.le_iff_toNat_le] at h
  split_ifs at h with h₁ h₂ h₃
  · left
    use h₁.1, h₁.2, (Option.some.inj h).symm
  · right
    left
    use h₂.1, h₂.2, (Option.some.inj h).symm
  · right
    right
    use h₃.1, h₃.2, (Option.some.inj h).symm

theorem value_digitChar : ∀ n < 16, value (Nat.digitChar n) = some n := by decide

@[simp]
theorem encode_nil :
  encode [] = []
  := rfl

@[simp]
theorem encode_cons (b : UInt8) (bs : List UInt8) :
  encode (b :: bs) = byte b ++ encode bs
  := rfl

theorem encode_append (bs bs' : List UInt8) :
  encode (bs ++ bs') = encode bs ++ encode bs'
  := List.flatMap_append

theorem length_encode (bs : List UInt8) :
  (encode bs).length = 2 * bs.length
  := by
  induction bs with
  | nil => rfl
  | cons b bs ih =>
      rw [encode_cons, List.length_append, ih, List.length_cons]
      simp only [byte, List.length_cons, List.length_nil]
      omega

theorem mem_encode {bs : List UInt8} {c : Char} (h : c ∈ encode bs) :
  ∃ n < 16, c = Nat.digitChar n
  := by
  obtain ⟨b, -, hc⟩ := List.mem_flatMap.mp h
  have hb := b.toNat_lt
  rcases List.mem_cons.mp hc with rfl | hc
  · use b.toNat / 16
    simp
    omega
  · obtain rfl := List.mem_singleton.mp hc
    use b.toNat % 16, Nat.mod_lt _ (by decide)

theorem decode?_byte_append (b : UInt8) (cs : List Char) :
  decode? (byte b ++ cs) = (decode? cs).map (b :: ·)
  := by
  have hb := b.toNat_lt
  have hdigits : UInt8.ofNat (16 * (b.toNat / 16) + b.toNat % 16) = b := by
    rw [Nat.div_add_mod, UInt8.ofNat_toNat]
  simp only [byte, List.cons_append, List.nil_append, decode?,
    value_digitChar (b.toNat / 16) (by omega), value_digitChar (b.toNat % 16) (by omega),
    Option.bind_eq_bind, Option.bind_some, hdigits]
  cases decode? cs <;> rfl

/-- What is read after bytes that were written is read after them. -/
theorem decode?_encode_append (bs : List UInt8) (cs : List Char) :
  decode? (encode bs ++ cs) = (decode? cs).map (bs ++ ·)
  := by
  induction bs with
  | nil => cases hcs : decode? cs <;> simp [hcs]
  | cons b bs ih =>
      rw [encode_cons, List.append_assoc, decode?_byte_append, ih, Option.map_map]
      rfl

/-- Reading undoes writing. -/
@[simp]
theorem decode?_encode (bs : List UInt8) :
  decode? (encode bs) = some bs
  := by
  have := decode?_encode_append bs []
  simpa [decode?] using this

end Hex
