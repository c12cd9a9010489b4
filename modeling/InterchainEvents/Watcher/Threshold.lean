import InterchainEvents.Hub.Invariant
import InterchainEvents.Hub.Semantics
import InterchainEvents.Watcher.Condition

/-!
# Thresholds, as the watcher and as the contract have them

The contract compares in the encoding of the condition, numbers being exact. The watcher makes
one simplified check whatever the encoding: it compares the numbers that the two texts begin
with, as doubles. On bytes that the contract reads as numbers the two agree up to rounding and up
to unusual white space (`threshold_agreement`); what the watcher lets pass, the contract accepts.
-/

namespace Watcher

open Shared Hub

/-! ### Numbers before and after the watcher's readings -/

/-- The white space that bytes begin with. -/
def leading (bytes : Binary) : List Char :=
  (Utf8.decodeLossy bytes).takeWhile Rust.isWhitespace

/-- White space in JavaScript is that of Unicode but for U+0085. -/
theorem isWhiteSpace_of_isWhitespace {c : Char} (h : Rust.isWhitespace c) (hc : c ≠ '\u0085') :
  Js.isWhiteSpace c
  := by
  have hne : c.toNat ≠ 0x85 := by
    intro heq
    apply hc
    rw [← Char.ofNat_toNat c, heq]
  simp only [Rust.isWhitespace, Js.isWhiteSpace, decide_eq_true_eq] at h ⊢
  omega

theorem stops_of_isWhitespace {c : Char} (h : Rust.isWhitespace c) :
  Js.Stops c
  := by
  have hdigit : Json.isDigit c = false := by
    apply Bool.eq_false_iff.mpr
    intro hdigit
    rw [Decimal.isDigit_eq] at hdigit
    rw [not_isWhitespace_of_isDigit hdigit] at h
    contradiction
  refine ⟨hdigit, ?_, ?_, ?_⟩
  all_goals
    rintro rfl
    contradiction

theorem ne_quote_of_isWhitespace {c : Char} (h : Rust.isWhitespace c) :
  c ≠ '"'
  := by
  rintro rfl
  contradiction

/-- A text either has a property throughout, or has a first character without it. -/
theorem all_or_exists_first (p : Char → Bool) (cs : List Char) :
  cs.all p ∨ ∃ pre c post, cs = pre ++ c :: post ∧ pre.all p ∧ p c = false
  := by
  induction cs with
  | nil =>
      left
      rfl
  | cons d cs ih =>
      cases hd : p d with
      | false =>
          right
          use [], d, cs
          simp [hd]
      | true =>
          rcases ih with hall | ⟨pre, c, post, rfl, hpre, hc⟩
          · left
            simp [hd, hall]
          · right
            use d :: pre, c, post
            simp [hd, hpre, hc]

section Numeral

variable {before opening plus digits closing after : List Char}

/-- A numeral between quotes is read, the white space before it being that of JavaScript and what
comes after it not going on with it. -/
theorem toNumber_numeral (hbefore : before.all Js.isWhiteSpace)
    (hopening : opening.all (· = '"')) (hplus : plus = [] ∨ plus = ['+']) (hne : digits ≠ [])
    (hdigits : digits.all Char.isDigit) (hclosing : closing.all (· = '"'))
    (hafter : ∀ c ∈ after, Js.Stops c ∧ c ≠ '"') :
  toNumber (before ++ (opening ++ (plus ++ digits) ++ closing) ++ after)
    = Binary64.round false (Nat.ofDigitChars 10 digits 0) 1
  := by
  have hcore : ∀ c ∈ plus ++ digits, c ≠ '"' := by
    intro c hc heq
    subst heq
    rcases List.mem_append.mp hc with hc | hc
    · rcases hplus with rfl | rfl <;> simp at hc
    · have := List.all_eq_true.mp hdigits _ hc
      contradiction
  have hspace : ∀ c ∈ before, c ≠ '"' := by
    rintro c hc rfl
    have := List.all_eq_true.mp hbefore _ hc
    contradiction
  rw [toNumber, Js.removeQuotes_append, Js.removeQuotes_append, Js.removeQuotes_append,
    Js.removeQuotes_append, Js.removeQuotes_of_not_mem hspace, Js.removeQuotes_of_all hopening,
    Js.removeQuotes_of_not_mem hcore, Js.removeQuotes_of_all hclosing,
    Js.removeQuotes_of_not_mem fun c hc => (hafter c hc).2]
  rw [List.nil_append, List.append_nil, List.append_assoc, Js.parseFloat_digits hbefore hplus hne,
    Js.digitsValue_eq]
  · simpa [Decimal.isDigit_eq] using hdigits
  · intro c hc
    apply (hafter c (List.mem_of_mem_head? hc)).1

/-- A text that goes on, after white space, with a character beyond ASCII is not a number. -/
theorem toNumber_beyond {c : Char} (hbefore : before.all Js.isWhiteSpace) (hc : 0x80 ≤ c.toNat)
    (hspace : Js.isWhiteSpace c = false) (rest : List Char) :
  toNumber (before ++ c :: rest) = .nan
  := by
  have hquote : ∀ d ∈ before, d ≠ '"' := by
    rintro d hd rfl
    have := List.all_eq_true.mp hbefore _ hd
    contradiction
  have hc' : c ≠ '"' := by
    rintro rfl
    contradiction
  rw [toNumber, Js.removeQuotes_append, Js.removeQuotes_of_not_mem hquote, Js.removeQuotes,
    List.filter_cons_of_pos (by simpa using hc')]
  apply Js.parseFloat_beyond hbefore hc hspace

end Numeral

/-! ### What the watcher reads a number as -/

section Reading

variable {bytes : Binary} {before opening plus digits closing after : List Char}

theorem mem_core (hopening : opening.all (· = '"')) (hplus : plus = [] ∨ plus = ['+'])
    (hdigits : digits.all Char.isDigit) {c : Char} (hc : c ∈ opening ++ (plus ++ digits)) :
  c = '"' ∨ c = '+' ∨ c.isDigit
  := by
  rcases List.mem_append.mp hc with hc | hc
  · left
    apply of_decide_eq_true (List.all_eq_true.mp hopening c hc)
  · right
    rcases List.mem_append.mp hc with hc | hc
    · left
      rcases hplus with rfl | rfl
      · contradiction
      · apply List.mem_singleton.mp hc
    · right
      apply List.all_eq_true.mp hdigits c hc

theorem leading_eq
    (htext : ReadsText bytes (before ++ (opening ++ (plus ++ digits) ++ closing) ++ after))
    (hbefore : before.all Rust.isWhitespace) (hopening : opening.all (· = '"'))
    (hplus : plus = [] ∨ plus = ['+']) (hne : digits ≠ []) (hdigits : digits.all Char.isDigit) :
  leading bytes = before
  := by
  have hcore : opening ++ (plus ++ digits) ≠ [] := by simp [hne]
  obtain ⟨c, core, heq⟩ := List.exists_cons_of_ne_nil hcore
  have hc : Rust.isWhitespace c = false := by
    have hmem : c ∈ opening ++ (plus ++ digits) := by
      rw [heq]
      apply List.mem_cons_self
    rcases mem_core hopening hplus hdigits hmem with rfl | rfl | hdigit
    · rfl
    · rfl
    · apply not_isWhitespace_of_isDigit hdigit
  rw [leading, htext, Utf8.decodeLossy_encode, heq, List.append_assoc,
    List.takeWhile_append_of_pos (List.all_eq_true.mp hbefore)]
  simp [hc]

theorem textDecode_eq
    (htext : ReadsText bytes (before ++ (opening ++ (plus ++ digits) ++ closing) ++ after))
    (hbefore : before.all Rust.isWhitespace) (hopening : opening.all (· = '"'))
    (hplus : plus = [] ∨ plus = ['+']) (hdigits : digits.all Char.isDigit)
    (hclosing : closing.all (· = '"')) (hafter : after.all Rust.isWhitespace) :
  Js.textDecode bytes = before ++ (opening ++ (plus ++ digits) ++ closing) ++ after
  := by
  rw [Js.textDecode, htext, Utf8.decodeLossy_encode]
  apply Js.dropMark_of_head
  intro hhead
  have hmem := List.mem_of_mem_head? hhead
  rw [List.mem_append, List.mem_append, List.mem_append] at hmem
  rcases hmem with (hmem | hmem | hmem) | hmem
  · have := List.all_eq_true.mp hbefore _ hmem
    contradiction
  · rcases mem_core hopening hplus hdigits hmem with h | h | h <;> contradiction
  · have := List.all_eq_true.mp hclosing _ hmem
    contradiction
  · have := List.all_eq_true.mp hafter _ hmem
    contradiction

theorem latin1_eq
    (htext : ReadsText bytes (before ++ (opening ++ (plus ++ digits) ++ closing) ++ after))
    (hopening : opening.all (· = '"')) (hplus : plus = [] ∨ plus = ['+'])
    (hdigits : digits.all Char.isDigit) (hclosing : closing.all (· = '"')) :
  Utf8.latin1 bytes
    = Utf8.latin1 (Utf8.encode before) ++ (opening ++ (plus ++ digits) ++ closing)
      ++ Utf8.latin1 (Utf8.encode after)
  := by
  have hascii : ∀ c ∈ opening ++ (plus ++ digits) ++ closing, c.toNat < 0x80 := by
    intro c hc
    rcases List.mem_append.mp hc with hc | hc
    · rcases mem_core hopening hplus hdigits hc with rfl | rfl | hdigit
      · decide
      · decide
      · rw [← Decimal.isDigit_eq] at hdigit
        have := Decimal.toNat_of_isDigit hdigit
        omega
    · obtain rfl := of_decide_eq_true (List.all_eq_true.mp hclosing c hc)
      decide
  rw [htext, Utf8.encode_append, Utf8.encode_append, Utf8.latin1_append, Utf8.latin1_append,
    Utf8.latin1_encode_of_ascii hascii]

end Reading

/-- The watcher reads a number in the value, unless U+0085 comes before it. -/
theorem toNumber_value {value : Binary} {a : ℕ} (h : ReadsNumber value a) :
  toNumber (Js.textDecode value)
    = if '\u0085' ∈ leading value then .nan else Binary64.round false a 1
  := by
  obtain ⟨before, opening, plus, digits, closing, after, htext, hbefore, hafter, hopening,
    hclosing, hplus, hne, hdigits, rfl, -⟩ := h
  rw [textDecode_eq htext hbefore hopening hplus hdigits hclosing hafter,
    leading_eq htext hbefore hopening hplus hne hdigits]
  rcases all_or_exists_first Js.isWhiteSpace before with hall | ⟨pre, c, post, rfl, hpre, hc⟩
  · have hnext : '\u0085' ∉ before := by
      intro hmem
      have := List.all_eq_true.mp hall _ hmem
      contradiction
    rw [if_neg hnext, toNumber_numeral hall hopening hplus hne hdigits hclosing]
    intro c hc
    have hspace := List.all_eq_true.mp hafter c hc
    use stops_of_isWhitespace hspace, ne_quote_of_isWhitespace hspace
  · have hnext : c = '\u0085' := by
      by_contra hne
      have := isWhiteSpace_of_isWhitespace (List.all_eq_true.mp hbefore c (by simp)) hne
      rw [hc] at this
      contradiction
    subst hnext
    rw [if_pos (by simp), List.append_assoc, List.append_assoc, List.cons_append,
      toNumber_beyond hpre (by decide) hc]

/-- A character beyond ASCII is, recoded, still one, and not white space. -/
theorem exists_recoded_cons {c : Char} (hc : 0x80 ≤ c.toNat) (cs : List Char) :
  ∃ d ds, Utf8.latin1 (Utf8.encode (c :: cs)) = d :: ds ∧ 0x80 ≤ d.toNat ∧
    Js.isWhiteSpace d = false
  := by
  obtain ⟨b, bs, hbs, hb, -⟩ := Utf8.utf8EncodeChar_of_ge hc
  have hlt := b.toNat_lt
  rw [Utf8.encode_cons, hbs]
  refine ⟨Char.ofNat b.toNat, _, rfl, ?_, ?_⟩
  · rw [Utf8.toNat_latin1]
    omega
  · simp only [Js.isWhiteSpace, Utf8.toNat_latin1, decide_eq_false_iff_not]
    omega

/-- The watcher reads a number in the threshold, unless white space beyond ASCII comes before
it. -/
theorem toNumber_threshold {threshold : Binary} {b : ℕ} (h : ReadsNumber threshold b) :
  toNumber (Utf8.latin1 threshold)
    = if (leading threshold).any fun c => decide (0x80 ≤ c.toNat) then .nan
      else Binary64.round false b 1
  := by
  obtain ⟨before, opening, plus, digits, closing, after, htext, hbefore, hafter, hopening,
    hclosing, hplus, hne, hdigits, rfl, -⟩ := h
  rw [latin1_eq htext hopening hplus hdigits hclosing,
    leading_eq htext hbefore hopening hplus hne hdigits]
  have hspace {c : Char} (hc : c ∈ before) (hascii : c.toNat < 0x80) : Js.isWhiteSpace c := by
    apply isWhiteSpace_of_isWhitespace (List.all_eq_true.mp hbefore c hc)
    rintro rfl
    contradiction
  rcases all_or_exists_first (fun c => decide (c.toNat < 0x80)) before with
    hall | ⟨pre, c, post, rfl, hpre, hc⟩
  · have hascii : ∀ c ∈ before, c.toNat < 0x80 := by simpa using hall
    have hnone : ¬ before.any fun c => decide (0x80 ≤ c.toNat) := by simpa using hascii
    rw [if_neg hnone, Utf8.latin1_encode_of_ascii hascii,
      toNumber_numeral _ hopening hplus hne hdigits hclosing]
    · intro c hc
      rcases Utf8.mem_of_mem_latin1_encode hc with hc | hc
      · have hspace := List.all_eq_true.mp hafter c hc
        use stops_of_isWhitespace hspace, ne_quote_of_isWhitespace hspace
      · use Js.stops_of_ge hc
        rintro rfl
        contradiction
    · apply List.all_eq_true.mpr
      intro c hc
      apply hspace hc (hascii c hc)
  · have hc' : 0x80 ≤ c.toNat := by simpa using hc
    have hpre' : ∀ d ∈ pre, d.toNat < 0x80 := by simpa using hpre
    obtain ⟨d, ds, hds, hd, hdspace⟩ := exists_recoded_cons hc' post
    have hsome : (pre ++ c :: post).any fun c => decide (0x80 ≤ c.toNat) := by simp [hc']
    rw [if_pos hsome, Utf8.encode_append, Utf8.latin1_append, Utf8.latin1_encode_of_ascii hpre',
      hds, List.append_assoc, List.append_assoc, List.cons_append, toNumber_beyond _ hd hdspace]
    apply List.all_eq_true.mpr
    intro d hd
    apply hspace (List.mem_append_left _ hd) (hpre' d hd)

/-! ### Agreement -/

/-- Neither side begins with white space that the watcher's reading of it does not skip. -/
def Skips (value threshold : Binary) : Prop :=
  '\u0085' ∉ leading value ∧ ∀ c ∈ leading threshold, c.toNat < 0x80

/-- The doubles nearest to two numbers are different. -/
def Apart (a b : ℕ) : Prop :=
  Binary64.round false a 1 ≠ Binary64.round false b 1

instance (a b : ℕ) : Decidable (Apart a b) :=
  inferInstanceAs (Decidable (_ ≠ _))

/-- Two numbers up to `2 ^ 53` are the doubles nearest to them. -/
theorem apart_of_le {a b : ℕ} (ha : a ≤ 2 ^ 53) (hb : b ≤ 2 ^ 53) (h : a ≠ b) :
  Apart a b
  := Binary64.round_ne_round ha hb h

theorem not_any_iff {cs : List Char} :
  (¬ cs.any fun c => decide (0x80 ≤ c.toNat)) ↔ ∀ c ∈ cs, c.toNat < 0x80
  := by
  simp

theorem lt_nan (x : Binary64) :
  x.lt .nan = false
  := by
  cases x <;> rfl

theorem nan_lt (x : Binary64) :
  Binary64.lt .nan x = false
  := rfl

/-- Two numbers, each of which may be read as none, are compared as doubles. -/
theorem lt_readings_iff {a b : ℕ} (ha : a < 2 ^ 128) (hb : b < 2 ^ 128) (p q : Prop) [Decidable p]
    [Decidable q] :
  (if p then Binary64.nan else Binary64.round false b 1).lt
      (if q then Binary64.nan else Binary64.round false a 1) = true
    ↔ b < a ∧ Apart b a ∧ ¬ p ∧ ¬ q
  := by
  by_cases hp : p
  · simp [hp, nan_lt]
  · by_cases hq : q
    · simp [hq, lt_nan]
    · rw [if_neg hp, if_neg hq, Binary64.lt_round_iff (by decide) ha.le hb.le]
      simp [hp, hq, Apart]

theorem lt_of_readsNumber {bytes : Binary} {n : ℕ} (h : ReadsNumber bytes n) :
  n < 2 ^ 128
  := by
  obtain ⟨-, -, -, -, -, -, -, -, -, -, -, -, -, -, -, hn⟩ := h
  apply hn

variable {value threshold : Binary} {a b : ℕ}

theorem checkCondition_greaterThan_iff (ha : ReadsNumber value a) (hb : ReadsNumber threshold b)
    (encoding : ValueEncoding) :
  checkCondition (SubscriptionCondition.toWire (.greaterThan threshold encoding)) value = true
    ↔ b < a ∧ Apart b a ∧ Skips value threshold
  := by
  simp only [SubscriptionCondition.toWire, checkCondition, toList_toBase64, Js.atob_encode,
    toNumber_value ha, toNumber_threshold hb]
  rw [lt_readings_iff (lt_of_readsNumber ha) (lt_of_readsNumber hb), Skips,
    ← not_any_iff, and_comm (b := _ ∉ _)]

theorem checkCondition_lessThan_iff (ha : ReadsNumber value a) (hb : ReadsNumber threshold b)
    (encoding : ValueEncoding) :
  checkCondition (SubscriptionCondition.toWire (.lessThan threshold encoding)) value = true
    ↔ a < b ∧ Apart a b ∧ Skips value threshold
  := by
  simp only [SubscriptionCondition.toWire, checkCondition, toList_toBase64, Js.atob_encode,
    toNumber_value ha, toNumber_threshold hb]
  rw [lt_readings_iff (lt_of_readsNumber hb) (lt_of_readsNumber ha), Skips, ← not_any_iff]

theorem apart_comm {a b : ℕ} :
  Apart a b ↔ Apart b a
  := ne_comm

/-- Bytes denote at most one number. -/
theorem readsNumber_unique {bytes : Binary} {m n : ℕ} (hm : ReadsNumber bytes m)
    (hn : ReadsNumber bytes n) :
  m = n
  := by
  have := (parseU128_ok_iff.mpr hm).symm.trans (parseU128_ok_iff.mpr hn)
  apply Except.ok.inj this

theorem exceeds_numeric_iff (ha : ReadsNumber value a) (hb : ReadsNumber threshold b) :
  Exceeds .numeric value threshold ↔ b < a
  := by
  constructor
  · rintro ⟨m, n, hm, hn, hlt⟩
    rwa [readsNumber_unique ha hm, readsNumber_unique hb hn]
  · intro hlt
    use a, b

/-- On bytes that the contract reads as numbers the watcher lets pass, in any encoding, exactly
what the contract accepts in the numeric one, provided that the doubles nearest to the numbers
differ and that the white space before them is skipped. -/
theorem threshold_agreement (lib : Libraries) (ha : parseU128 value = .ok a)
    (hb : parseU128 threshold = .ok b) (encoding : ValueEncoding) :
  (checkCondition (SubscriptionCondition.toWire (.greaterThan threshold encoding)) value = true
      ↔ checkValue lib (.greaterThan threshold .numeric) value = .ok ()
        ∧ Apart a b ∧ Skips value threshold) ∧
    (checkCondition (SubscriptionCondition.toWire (.lessThan threshold encoding)) value = true
      ↔ checkValue lib (.lessThan threshold .numeric) value = .ok ()
        ∧ Apart a b ∧ Skips value threshold)
  := by
  have ha := parseU128_ok_iff.mp ha
  have hb := parseU128_ok_iff.mp hb
  simp only [checkValue_ok_iff, Satisfies]
  rw [checkCondition_greaterThan_iff ha hb, checkCondition_lessThan_iff ha hb,
    exceeds_numeric_iff ha hb, exceeds_numeric_iff hb ha, apart_comm (a := b)]
  use Iff.rfl

/-- A hundred is above the threshold ninety-nine, for the watcher and for the contract. -/
theorem threshold_agreement_hundred :
  (checkCondition (SubscriptionCondition.toWire (.greaterThan (utf8 "99") .numeric)) (utf8 "100")
      = true
      ↔ checkValue Libraries.sample (.greaterThan (utf8 "99") .numeric) (utf8 "100") = .ok ()
        ∧ Apart 100 99 ∧ Skips (utf8 "100") (utf8 "99")) ∧
    (checkCondition (SubscriptionCondition.toWire (.lessThan (utf8 "99") .numeric)) (utf8 "100")
      = true
      ↔ checkValue Libraries.sample (.lessThan (utf8 "99") .numeric) (utf8 "100") = .ok ()
        ∧ Apart 100 99 ∧ Skips (utf8 "100") (utf8 "99"))
  := threshold_agreement Libraries.sample rfl rfl .numeric

/-! ### Disagreements -/

/-- The watcher lets pass a text that is below the threshold as bytes, and one that the contract
does not read as a number; it skips a number that is one above the threshold, since both are the
same double. -/
theorem thresholds_disagree :
  ¬ (checkCondition (SubscriptionCondition.toWire (.greaterThan (utf8 "9") .bytes)) (utf8 "10")
      = true ↔ compareValues (utf8 "10") (utf8 "9") .bytes = .ok .gt) ∧
    ¬ (checkCondition (SubscriptionCondition.toWire (.greaterThan (utf8 "9") .numeric))
        (utf8 "10 atom") = true ↔ compareValues (utf8 "10 atom") (utf8 "9") .numeric = .ok .gt) ∧
    ¬ (checkCondition (SubscriptionCondition.toWire
        (.greaterThan (utf8 "9007199254740992") .numeric)) (utf8 "9007199254740993") = true
        ↔ compareValues (utf8 "9007199254740993") (utf8 "9007199254740992") .numeric = .ok .gt)
  := by
  refine ⟨?_, ?_, ?_⟩
  · intro h
    have := h.mp (by decide +kernel)
    cases this
  · intro h
    have := h.mp (by decide +kernel)
    cases this
  · intro h
    have := h.mpr rfl
    revert this
    decide +kernel

end Watcher
