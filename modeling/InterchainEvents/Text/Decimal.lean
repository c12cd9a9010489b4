import InterchainEvents.Text.Json
import Mathlib.Data.List.DropRight
import Mathlib.Tactic.Ring

/-!
# Decimal numerals

The numeral of a number are its digits `Nat.toDigits 10 n`, and the value of digits is
`Nat.ofDigitChars 10 ds 0`. A numeral begins with a zero only if it is that zero
(`toDigits_cases`), and any other digits that do not begin with one are the numeral of their value
(`toDigits_ofDigitChars`). The first digits of a numeral are the value divided by a power of ten
(`ofDigitChars_take`).
-/

namespace Decimal

/-! ### Digits -/

theorem isDigit_eq (c : Char) :
  Json.isDigit c = c.isDigit
  := by
  simp [Json.isDigit, Char.isDigit, Char.le_def]

theorem isDigit_of_mem_toDigits {n : ℕ} {c : Char} (h : c ∈ Nat.toDigits 10 n) :
  Json.isDigit c = true
  := by
  rw [isDigit_eq]
  apply Nat.isDigit_of_mem_toDigits (by decide) (by decide) h

theorem toNat_of_isDigit {c : Char} (h : Json.isDigit c) :
  48 ≤ c.toNat ∧ c.toNat ≤ 57
  := by
  simpa [Json.isDigit, Char.le_def, UInt32.le_iff_toNat_le] using h

/-- A digit is the character of its value. -/
theorem digitChar_of_isDigit {c : Char} (h : Json.isDigit c) :
  Nat.digitChar (c.toNat - '0'.toNat) = c
  := by
  have hc := toNat_of_isDigit h
  rw [show '0'.toNat = 48 from rfl]
  apply Char.toNat_inj.mp
  rw [Nat.toNat_digitChar_of_lt_ten (by omega)]
  omega

/-- The digits of a number begin with a zero only if they are that zero. -/
theorem toDigits_cases (n : ℕ) :
  Nat.toDigits 10 n = ['0'] ∨ ∃ c cs, Nat.toDigits 10 n = c :: cs ∧ c ≠ '0'
  := by
  induction n using Nat.strongRecOn with
  | ind n ih =>
      rw [Nat.toDigits_eq_if (by decide)]
      split_ifs with hlt
      · have hall : ∀ m < 10, Nat.digitChar m = '0' ∨ Nat.digitChar m ≠ '0' := by decide
        rcases hall n hlt with h | h
        · left
          rw [h]
        · right
          exact ⟨_, _, rfl, h⟩
      · right
        rcases ih (n / 10) (by omega) with h | ⟨c, cs, h, hc⟩
        · -- a single zero would be the quotient of a number below ten
          have hvalue : Nat.ofDigitChars 10 (Nat.toDigits 10 (n / 10)) 0 = n / 10 :=
            Nat.ofDigitChars_ten_toDigits
          rw [h] at hvalue
          have : n / 10 = 0 := hvalue.symm
          omega
        · rw [h]
          exact ⟨c, _, rfl, hc⟩

theorem toDigits_injective :
  Function.Injective (Nat.toDigits 10)
  := by
  intro m n h
  have hm : Nat.ofDigitChars 10 (Nat.toDigits 10 m) 0 = m := Nat.ofDigitChars_ten_toDigits
  rwa [h, Nat.ofDigitChars_ten_toDigits, eq_comm] at hm

/-- The digits of a number other than zero do not begin with a zero. -/
theorem exists_toDigits_cons {n : ℕ} (hn : 0 < n) :
  ∃ c cs, Nat.toDigits 10 n = c :: cs ∧ c ≠ '0'
  := by
  rcases toDigits_cases n with h | h
  · have hvalue : Nat.ofDigitChars 10 (Nat.toDigits 10 n) 0 = n := Nat.ofDigitChars_ten_toDigits
    rw [h] at hvalue
    have : n = 0 := hvalue.symm
    omega
  · apply h

theorem lt_pow_length_toDigits (n : ℕ) :
  n < 10 ^ (Nat.toDigits 10 n).length
  := (Nat.length_toDigits_le_iff (by decide) Nat.length_toDigits_pos).mp le_rfl

/-- The first digit of a number that is not zero counts. -/
theorem pow_length_toDigits_le {n : ℕ} (hn : 0 < n) :
  10 ^ ((Nat.toDigits 10 n).length - 1) ≤ n
  := by
  rcases Nat.eq_zero_or_pos ((Nat.toDigits 10 n).length - 1) with hzero | hpos
  · rw [hzero]
    apply hn
  · apply Nat.le_of_not_lt
    intro hlt
    have := (Nat.length_toDigits_le_iff (by decide) hpos).mpr hlt
    omega

/-! ### Values -/

theorem ofDigitChars_concat (ds : List Char) (d : Char) :
  Nat.ofDigitChars 10 (ds ++ [d]) 0 = 10 * Nat.ofDigitChars 10 ds 0 + (d.toNat - '0'.toNat)
  := by
  rw [Nat.ofDigitChars_append, Nat.ofDigitChars_cons, Nat.ofDigitChars_nil]

theorem ofDigitChars_append (as bs : List Char) :
  Nat.ofDigitChars 10 (as ++ bs) 0
    = Nat.ofDigitChars 10 as 0 * 10 ^ bs.length + Nat.ofDigitChars 10 bs 0
  := by
  rw [Nat.ofDigitChars_append, Nat.ofDigitChars_eq_ofDigitChars_zero, Nat.mul_comm]

theorem ofDigitChars_lt {ds : List Char} (hds : ∀ d ∈ ds, Json.isDigit d = true) :
  Nat.ofDigitChars 10 ds 0 < 10 ^ ds.length
  := by
  induction ds using List.reverseRecOn with
  | nil => decide
  | append_singleton ds d ih =>
      have hd := toNat_of_isDigit (hds d (by simp))
      have := ih fun d' hd' => hds d' (by simp [hd'])
      rw [ofDigitChars_concat, List.length_append, List.length_singleton, Nat.pow_succ,
        show '0'.toNat = 48 from rfl]
      omega

/-- The value of the first digits is that of all of them divided by a power of ten. -/
theorem ofDigitChars_take {ds : List Char} (hds : ∀ d ∈ ds, Json.isDigit d = true) (k : ℕ) :
  Nat.ofDigitChars 10 (ds.take k) 0 = Nat.ofDigitChars 10 ds 0 / 10 ^ (ds.length - k)
  := by
  have hlt : Nat.ofDigitChars 10 (ds.drop k) 0 < 10 ^ (ds.drop k).length :=
    ofDigitChars_lt fun d hd => hds d (List.mem_of_mem_drop hd)
  have happend := ofDigitChars_append (ds.take k) (ds.drop k)
  rw [List.take_append_drop] at happend
  have hpow : 0 < 10 ^ (ds.drop k).length := Nat.pow_pos (by decide)
  rw [happend, ← List.length_drop, Nat.add_comm, Nat.add_mul_div_right _ _ hpow,
    Nat.div_eq_of_lt hlt, Nat.zero_add]

/-- Digits that do not begin with a zero are those of their value. -/
theorem toDigits_ofDigitChars {d : Char} {ds : List Char}
    (hds : ∀ c ∈ d :: ds, Json.isDigit c = true) (hd : d ≠ '0') :
  Nat.toDigits 10 (Nat.ofDigitChars 10 (d :: ds) 0) = d :: ds ∧
    0 < Nat.ofDigitChars 10 (d :: ds) 0
  := by
  induction ds using List.reverseRecOn with
  | nil =>
      have hdigit := digitChar_of_isDigit (hds d (by simp))
      have hlt := ofDigitChars_lt hds
      have hvalue : Nat.ofDigitChars 10 [d] 0 = d.toNat - '0'.toNat := by
        rw [Nat.ofDigitChars_cons, Nat.ofDigitChars_nil, Nat.mul_zero, Nat.zero_add]
      rw [hvalue, List.length_singleton, Nat.pow_one] at hlt
      rw [hvalue, Nat.toDigits_of_lt_base hlt, hdigit]
      use rfl
      apply Nat.pos_of_ne_zero
      intro hzero
      rw [hzero] at hdigit
      apply hd hdigit.symm
  | append_singleton ds c ih =>
      obtain ⟨ih, hpos⟩ := ih fun c' hc' => hds c' (by
        rw [← List.cons_append]
        apply List.mem_append_left _ hc')
      have hc := hds c (by simp)
      have hlt := toNat_of_isDigit hc
      rw [← List.cons_append, ofDigitChars_concat]
      rw [show '0'.toNat = 48 from rfl]
      constructor
      · rw [← Nat.toDigits_append_toDigits (by decide) hpos (by omega), ih,
          Nat.toDigits_of_lt_base (by omega)]
        congr 2
        apply digitChar_of_isDigit hc
      · omega

/-- Digits are digits without zeros at the end, and then zeros. -/
theorem rdropWhile_append_replicate (ds : List Char) :
  ds.rdropWhile (· = '0') ++ List.replicate (ds.length - (ds.rdropWhile (· = '0')).length) '0' = ds
  := by
  have hsplit : ds.rdropWhile (· = '0') ++ ds.rtakeWhile (· = '0') = ds :=
    List.rdropWhile_append_rtakeWhile
  have hlength := congrArg List.length hsplit
  have hzeros : ds.rtakeWhile (· = '0') = List.replicate (ds.rtakeWhile (· = '0')).length '0' := by
    apply List.eq_replicate_iff.mpr
    use rfl
    intro c hc
    simpa using List.mem_rtakeWhile_imp hc
  rw [List.length_append] at hlength
  rw [show ds.length - (ds.rdropWhile (· = '0')).length = (ds.rtakeWhile (· = '0')).length by omega,
    ← hzeros, hsplit]

end Decimal
