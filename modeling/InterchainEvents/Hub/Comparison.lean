import InterchainEvents.Order.Reading
import InterchainEvents.Hub.Invariant
import InterchainEvents.Hub.Semantics

/-!
# Comparison with a threshold

In every encoding values are compared by what they read as: bytes as themselves, texts as the
bytes that encode them, numbers as numbers. So the comparison is exact where it succeeds, and
obeys the laws of an order (`compareValues_exact`).
-/

namespace Hub

open Shared Reading

variable {lib : Libraries}

/-! ### Readings -/

theorem ReadsNumber.unique {bytes : Binary} {m n : ℕ} (hm : ReadsNumber bytes m)
    (hn : ReadsNumber bytes n) :
  m = n
  := by
  rw [← parseU128_ok_iff] at hm hn
  apply Except.ok.inj (hm.symm.trans hn)

/-- The bytes are a text in UTF-8, and stand for themselves. -/
def ReadsEncoded (bytes : Binary) (encoded : Binary) : Prop :=
  encoded = bytes ∧ ∃ s, ReadsText bytes s

theorem compares_bytes :
  Compares (fun bytes x => x = bytes) (compareValues · · .bytes)
  where
  unique h h' := h.trans h'.symm
  ok_iff := by
    intro a b o
    simp [compareValues]

theorem compares_string :
  Compares ReadsEncoded (compareValues · · .string)
  where
  unique h h' := h.1.trans h'.1.symm
  ok_iff := by
    intro a b o
    rw [compareValues_string_iff]
    constructor
    · rintro ⟨s, t, hs, ht, ho⟩
      exact ⟨a, b, ⟨rfl, s, hs⟩, ⟨rfl, t, ht⟩, by rw [hs, ht, ho]⟩
    · rintro ⟨_, _, ⟨rfl, s, hs⟩, ⟨rfl, t, ht⟩, ho⟩
      exact ⟨s, t, hs, ht, by rw [← hs, ← ht, ho]⟩

theorem compares_numeric :
  Compares ReadsNumber (compareValues · · .numeric)
  where
  unique := ReadsNumber.unique
  ok_iff := compareValues_numeric_iff

/-! ### Laws of the order -/

theorem compareValues_swap {encoding : ValueEncoding} {a b : Binary} {o : Ordering}
    (h : compareValues a b encoding = .ok o) :
  compareValues b a encoding = .ok o.swap
  := by
  cases encoding with
  | bytes => apply compares_bytes.swap h
  | string => apply compares_string.swap h
  | numeric => apply compares_numeric.swap h

theorem compareValues_trans {encoding : ValueEncoding} {a b c : Binary} {o o' : Ordering}
    (h : compareValues a b encoding = .ok o) (h' : compareValues b c encoding = .ok o')
    (hle : o ≠ .gt) (hle' : o' ≠ .gt) :
  compareValues a c encoding = .ok (o.then o')
  := by
  cases encoding with
  | bytes => apply compares_bytes.trans h h' hle hle'
  | string => apply compares_string.trans h h' hle hle'
  | numeric => apply compares_numeric.trans h h' hle hle'

theorem compareValues_not_between {encoding : ValueEncoding} {value t t' : Binary}
    (hequal : compareValues t t' encoding = .ok .eq) :
  ¬ (compareValues value t encoding = .ok .gt ∧ compareValues value t' encoding = .ok .lt)
  := by
  cases encoding with
  | bytes => apply compares_bytes.not_between hequal
  | string => apply compares_string.not_between hequal
  | numeric => apply compares_numeric.not_between hequal

/-- A comparison of texts that succeeds is that of their bytes. -/
theorem compareValues_string_eq {a b : Binary} {o : Ordering}
    (h : compareValues a b .string = .ok o) :
  compareValues a b .bytes = .ok o
  := by
  obtain ⟨s, t, hs, ht, rfl⟩ := compareValues_string_iff.mp h
  rw [hs, ht]
  rfl

/-! ### Thresholds -/

theorem checkValue_greaterThan_iff {threshold value : Binary} {encoding : ValueEncoding} :
  checkValue lib (.greaterThan threshold encoding) value = .ok ()
    ↔ compareValues value threshold encoding = .ok .gt
  := by
  rw [checkValue_ok_iff, compareValues_gt_iff]
  rfl

theorem checkValue_lessThan_iff {threshold value : Binary} {encoding : ValueEncoding} :
  checkValue lib (.lessThan threshold encoding) value = .ok ()
    ↔ compareValues value threshold encoding = .ok .lt
  := by
  rw [checkValue_ok_iff, compareValues_lt_iff]
  rfl

/-- Comparison with a threshold is exact and ordered. As numbers two values are compared if and
only if each reads as a number below `2 ^ 128`, and then as these numbers. As texts they are
compared if and only if each is a text in UTF-8, and then as bytes, of which the order is the
lexicographic one. In every encoding exchanging the sides reverses the result, the order is
transitive, and no value is both greater than and less than thresholds that compare equal. -/
theorem compareValues_exact (lib : Libraries) :
  (∀ a b, ((∃ o, compareValues a b .numeric = .ok o)
      ↔ (∃ m, ReadsNumber a m) ∧ ∃ n, ReadsNumber b n) ∧
    ∀ m n, ReadsNumber a m → ReadsNumber b n →
      compareValues a b .numeric = .ok (compare m n)) ∧
  (∀ a b, ((∃ o, compareValues a b .string = .ok o)
      ↔ (∃ s, ReadsText a s) ∧ ∃ t, ReadsText b t) ∧
    ∀ o, compareValues a b .string = .ok o → compareValues a b .bytes = .ok o) ∧
  (∀ a b, (compareValues a b .bytes = .ok .lt ↔ List.Lex (· < ·) a b) ∧
    (compareValues a b .bytes = .ok .eq ↔ a = b) ∧
    (compareValues a b .bytes = .ok .gt ↔ List.Lex (· < ·) b a)) ∧
  ∀ encoding,
    (∀ a b o, compareValues a b encoding = .ok o → compareValues b a encoding = .ok o.swap) ∧
    (∀ a b c o o', compareValues a b encoding = .ok o → compareValues b c encoding = .ok o' →
      o ≠ .gt → o' ≠ .gt → compareValues a c encoding = .ok (o.then o')) ∧
    ∀ t t' value, compareValues t t' encoding = .ok .eq →
      ¬ (checkValue lib (.greaterThan t encoding) value = .ok () ∧
        checkValue lib (.lessThan t' encoding) value = .ok ())
  := by
  constructor
  · intro a b
    constructor
    · apply compares_numeric.isOk_iff
    · intro m n hm hn
      apply compares_numeric.eq_compare hm hn
  · constructor
    · intro a b
      constructor
      · rw [compares_string.isOk_iff]
        simp [ReadsEncoded]
      · intro o ho
        apply compareValues_string_eq ho
    · constructor
      · intro a b
        constructor
        · apply compareValues_lt_iff
        · constructor
          · simp [compareValues]
          · apply compareValues_gt_iff
      · intro encoding
        constructor
        · intro a b o h
          apply compareValues_swap h
        · constructor
          · intro a b c o o' h h' hle hle'
            apply compareValues_trans h h' hle hle'
          · intro t t' value hequal
            rw [checkValue_greaterThan_iff, checkValue_lessThan_iff]
            apply compareValues_not_between hequal

/-- The number 7 with a leading zero in quotes is the 7 after a sign, and as texts the two compare
as their bytes; 6 is below 7, which is below 10; and 6 does not lie between 7 and 7. -/
theorem compareValues_exact_sample :
  compareValues [0x22, 0x30, 0x37, 0x22] [0x2B, 0x37] .numeric = .ok .eq ∧
    compareValues [0x22, 0x30, 0x37, 0x22] [0x2B, 0x37] .bytes = .ok .lt ∧
    compareValues [0x37] [0x36] .numeric = .ok .gt ∧
    compareValues [0x36] [0x31, 0x30] .numeric = .ok .lt ∧
    ¬ (checkValue .sample (.greaterThan [0x22, 0x30, 0x37, 0x22] .numeric) [0x36] = .ok () ∧
      checkValue .sample (.lessThan [0x2B, 0x37] .numeric) [0x36] = .ok ())
  := by
  obtain ⟨hnumeric, hstring, -, hlaws⟩ := compareValues_exact .sample
  obtain ⟨hswap, htrans, hbetween⟩ := hlaws .numeric
  have hseven : ReadsNumber [0x22, 0x30, 0x37, 0x22] 7 := parseU128_ok_iff.mp rfl
  have hseven' : ReadsNumber [0x2B, 0x37] 7 := parseU128_ok_iff.mp rfl
  have hequal := (hnumeric _ _).2 7 7 hseven hseven'
  constructor
  · apply hequal
  · constructor
    · apply (hstring _ _).2 .lt rfl
    · constructor
      · apply hswap [0x36] [0x37] .lt rfl
      · constructor
        · apply htrans [0x36] [0x37] [0x31, 0x30] .lt .lt rfl rfl (by decide) (by decide)
        · apply hbetween _ _ _ hequal

end Hub
