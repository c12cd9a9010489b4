import InterchainEvents.Js.Number

/-!
# The decimal texts of numbers

`Js.shortest` looks for the fewest digits that denote a number, and 17 digits are always enough
(`fewest_shortest`). So the text of a number denotes the number, and from this follows what
`parseInt` reads of it: the integer part where the text has no exponent, the first digit where it
has one (`parseInt_numberText`). The texts of integers below `2 ^ 53` are their digits
(`numberText_integer`).
-/

namespace Js

open Binary64 (one nearest roundScaled)

/-! ### Seventeen digits -/

theorem one_le_pow :
  one ≤ 10 ^ 324
  := by
  decide +kernel

/-- A number lies between the powers of ten with its exponent and the one before, both scaled. -/
theorem decimalExponent_spec {m : ℕ} (hm : 0 < m) :
  ∃ l : ℕ, decimalExponent m = l - 324 ∧ 0 < l ∧ 10 ^ (l - 1) * one ≤ m * 10 ^ 324 ∧
    m * 10 ^ 324 < 10 ^ l * one
  := by
  have hpos : 0 < m * 10 ^ 324 / one := by
    apply Nat.div_pos _ Binary64.one_pos
    apply one_le_pow.trans (Nat.le_mul_of_pos_left _ hm)
  refine ⟨_, rfl, Nat.length_toDigits_pos, ?_, ?_⟩
  · apply (Nat.le_div_iff_mul_le Binary64.one_pos).mp (Decimal.pow_length_toDigits_le hpos)
  · apply (Nat.div_lt_iff_lt_mul Binary64.one_pos).mp (Decimal.lt_pow_length_toDigits _)

/-- Bounds by powers of ten move along with the unit. -/
theorem pow_bounds {m o c l k p r : ℕ} (hscale : l + r = c + (k + 1) + p) (hl : 0 < l)
    (hlow : 10 ^ (l - 1) * o ≤ m * 10 ^ c) (hhigh : m * 10 ^ c < 10 ^ l * o) :
  10 ^ k * (o * 10 ^ p) ≤ m * 10 ^ r ∧ m * 10 ^ r < 10 ^ (k + 1) * (o * 10 ^ p)
  := by
  have hpow : 10 ^ c * 10 ^ (k + 1) * 10 ^ p = 10 ^ l * 10 ^ r := by
    rw [← Nat.pow_add, ← Nat.pow_add, ← Nat.pow_add, hscale]
  have hpow' : 10 ^ c * 10 ^ k * 10 ^ p = 10 ^ (l - 1) * 10 ^ r := by
    rw [← Nat.pow_add, ← Nat.pow_add, ← Nat.pow_add]
    congr 1
    omega
  have hc : 0 < 10 ^ c := Nat.pow_pos (by decide)
  have hr : 0 < 10 ^ r := Nat.pow_pos (by decide)
  constructor
  · apply Nat.le_of_mul_le_mul_left _ hc
    calc 10 ^ c * (10 ^ k * (o * 10 ^ p)) = 10 ^ c * 10 ^ k * 10 ^ p * o := by ring
      _ = 10 ^ (l - 1) * o * 10 ^ r := by rw [hpow', Nat.mul_right_comm]
      _ ≤ m * 10 ^ c * 10 ^ r := Nat.mul_le_mul_right _ hlow
      _ = 10 ^ c * (m * 10 ^ r) := by ring
  · apply Nat.lt_of_mul_lt_mul_left (a := 10 ^ c)
    calc 10 ^ c * (m * 10 ^ r) = m * 10 ^ c * 10 ^ r := by ring
      _ < 10 ^ l * o * 10 ^ r := Nat.mul_lt_mul_of_pos_right hhigh hr
      _ = 10 ^ c * 10 ^ (k + 1) * 10 ^ p * o := by rw [hpow, Nat.mul_right_comm]
      _ = 10 ^ c * (10 ^ (k + 1) * (o * 10 ^ p)) := by ring

/-- In units of the power of ten that leaves `k + 1` digits, a number has `k + 1` digits. -/
theorem scaled_bounds {m : ℕ} (hm : 0 < m) (k : ℕ) {e : ℤ}
    (he : e = decimalExponent m - (k + 1)) :
  10 ^ k * (one * 10 ^ e.toNat) ≤ m * 10 ^ (-e).toNat ∧
    m * 10 ^ (-e).toNat < 10 ^ (k + 1) * (one * 10 ^ e.toNat)
  := by
  obtain ⟨l, hl, hpos, hlow, hhigh⟩ := decimalExponent_spec hm
  apply pow_bounds (by omega) hpos hlow hhigh

/-- Twice the distance of the nearest integer is at most one. -/
theorem nearest_spec (a : ℕ) {d : ℕ} (hd : 0 < d) :
  2 * (nearest a d * d) ≤ 2 * a + d ∧ 2 * a ≤ 2 * (nearest a d * d) + d
  := by
  have hdiv := Nat.div_add_mod a d
  have hmod := Nat.mod_lt a hd
  rw [Nat.mul_comm] at hdiv
  rcases Binary64.nearest_cases a d with ⟨h, hrest⟩ | ⟨h, hrest⟩
  · rw [h]
    omega
  · rw [h, Nat.add_mul]
    omega

/-- The nearest of the integers with 17 digits denotes the number. -/
theorem decimal_nearest {m : ℕ} (hm : 0 < m) (hexact : Binary64.Exact (.finite false m))
    (neg : Bool) {e : ℤ} (he : e = decimalExponent m - 17) :
  decimal neg (nearest (m * 10 ^ (-e).toNat) (one * 10 ^ e.toNat)) e = .finite neg m
  := by
  obtain ⟨hlow, -⟩ := scaled_bounds hm 16 (e := e) (by omega)
  have hd : 0 < one * 10 ^ e.toNat := Nat.mul_pos Binary64.one_pos (Nat.pow_pos (by decide))
  obtain ⟨habove, hbelow⟩ := nearest_spec (m * 10 ^ (-e).toNat) hd
  have hscaled (s : ℕ) : s * 10 ^ e.toNat * one = s * (one * 10 ^ e.toNat) := by
    rw [Nat.mul_assoc, Nat.mul_comm one]
  have hround : roundScaled (nearest (m * 10 ^ (-e).toNat) (one * 10 ^ e.toNat) * 10 ^ e.toNat)
      (10 ^ (-e).toNat) = m := by
    -- half a unit is less than one part in `2 ^ 54`
    apply Binary64.roundScaled_of_close hexact.1 (Nat.pow_pos (by decide)) <;>
      rw [hscaled] <;> omega
  rw [decimal, Binary64.round, hround]
  apply if_pos hexact.2

theorem nearest_mem_candidates (m : ℕ) (e : ℤ) :
  nearest (m * 10 ^ (-e).toNat) (one * 10 ^ e.toNat) ∈ candidates m e
  := by
  rw [candidates]
  split_ifs with h
  · rw [h]
    apply List.mem_cons_self
  · rcases Binary64.nearest_cases (m * 10 ^ (-e).toNat) (one * 10 ^ e.toNat) with
      ⟨heq, -⟩ | ⟨heq, -⟩
    · contradiction
    · rw [heq]
      apply List.mem_cons_self

theorem shortestAt_isSome {m : ℕ} {e : ℤ} {s : ℕ} (hs : s ∈ candidates m e)
    (hdenotes : decimal false s e = .finite false m) :
  (shortestAt m e).isSome
  := by
  rw [shortestAt, Option.isSome_map, List.find?_isSome]
  use s, hs
  apply decide_eq_true hdenotes

theorem shortestAt_eq_some {m : ℕ} {e : ℤ} {r : ℕ × ℤ} (h : shortestAt m e = some r) :
  r.2 = e ∧ r.1 ∈ candidates m e ∧ decimal false r.1 e = .finite false m
  := by
  obtain ⟨s, hs, rfl⟩ := Option.map_eq_some_iff.mp h
  use rfl, List.mem_of_find?_eq_some hs
  simpa using List.find?_some hs

/-- The fewest digits that denote a number: with their power of ten they do denote it, and no
candidate with fewer digits does. -/
structure Fewest (m s : ℕ) (e : ℤ) : Prop where
  candidate : s ∈ candidates m e
  denotes : decimal false s e = .finite false m
  exponent_le : e < decimalExponent m
  le_exponent : decimalExponent m ≤ e + 17
  fewest : ∀ e', e < e' → e' < decimalExponent m → shortestAt m e' = none

/-- The first of the numbers below `n` at which something is found. -/
theorem findSome?_range {α : Type} {f : ℕ → Option α} {n : ℕ} {b : α}
    (h : (List.range n).findSome? f = some b) :
  ∃ k < n, f k = some b ∧ ∀ j < k, f j = none
  := by
  induction n with
  | zero => simp at h
  | succ n ih =>
      rw [List.range_succ, List.findSome?_append, Option.or_eq_some_iff] at h
      rcases h with h | ⟨hnone, h⟩
      · obtain ⟨k, hk, hfound⟩ := ih h
        exact ⟨k, by omega, hfound⟩
      · refine ⟨n, by omega, by simpa using h, ?_⟩
        intro j hj
        apply List.findSome?_eq_none_iff.mp hnone j (List.mem_range.mpr hj)

/-- A number has a shortest decimal. -/
theorem fewest_shortest {m : ℕ} (hm : 0 < m) (hexact : Binary64.Exact (.finite false m)) :
  Fewest m (shortest m).1 (shortest m).2
  := by
  have hlast : (shortestAt m (decimalExponent m - ((16 : ℕ) + 1))).isSome := by
    apply shortestAt_isSome (nearest_mem_candidates _ _)
    apply decimal_nearest hm hexact _ (by omega)
  obtain ⟨r, hr⟩ : ∃ r, (List.range 17).findSome?
      (fun k : ℕ => shortestAt m (decimalExponent m - (k + 1))) = some r := by
    apply Option.isSome_iff_exists.mp
    rw [List.findSome?_isSome_iff]
    exact ⟨16, by simp, hlast⟩
  obtain ⟨k, hk, hfound, hnone⟩ := findSome?_range hr
  obtain ⟨he, hcandidate, hdenotes⟩ := shortestAt_eq_some hfound
  rw [shortest, hr, Option.getD_some, he]
  refine ⟨hcandidate, hdenotes, by omega, by omega, ?_⟩
  intro e' hlow hhigh
  have hj := hnone (decimalExponent m - e' - 1).toNat (by omega)
  rwa [show decimalExponent m - (((decimalExponent m - e' - 1).toNat : ℤ) + 1) = e' by omega] at hj

/-! ### Integers -/

/-- The number that a decimal denotes is what its value is rounded to. -/
theorem roundScaled_of_denotes {neg neg' : Bool} {s m : ℕ} {e : ℤ}
    (h : decimal neg s e = .finite neg' m) :
  roundScaled (s * 10 ^ e.toNat) (10 ^ (-e).toNat) = m
  := by
  rw [decimal, Binary64.round] at h
  split_ifs at h
  cases h
  rfl

theorem decimal_integer {n : ℕ} (hexact : Binary64.Exact (.finite false (n * one))) :
  decimal false n 0 = .finite false (n * one)
  := by
  rw [decimal_zero, Binary64.round, Binary64.roundScaled_of_dvd hexact.1]
  apply if_pos hexact.2

theorem mem_candidates_integer (n : ℕ) :
  n ∈ candidates (n * one) 0
  := by
  have := nearest_mem_candidates (n * one) 0
  simpa [Binary64.nearest_mul n Binary64.one_pos] using this

theorem lt_of_mul_pow_lt {m o c l : ℕ} (hm : o ≤ m) (h : m * 10 ^ c < 10 ^ l * o) :
  c < l
  := by
  apply (Nat.pow_lt_pow_iff_right (a := 10) (by decide)).mp
  apply Nat.lt_of_mul_lt_mul_right (a := o)
  rw [Nat.mul_comm]
  apply (Nat.mul_le_mul_right _ hm).trans_lt h

/-- The shortest decimal of an integer is an integer. -/
theorem Fewest.exponent_nonneg {m s n : ℕ} {e : ℤ} (h : Fewest m s e) (hm : 0 < m)
    (hexact : Binary64.Exact (.finite false m)) (hn : m = n * one) :
  0 ≤ e
  := by
  by_contra hneg
  have hle : one ≤ m := Nat.le_of_dvd hm (hn ▸ Nat.dvd_mul_left one n)
  obtain ⟨l, hl, -, -, hhigh⟩ := decimalExponent_spec hm
  have hexp : 324 < l := lt_of_mul_pow_lt hle hhigh
  clear hhigh hle
  -- the integer itself has fewer digits
  have hnone := h.fewest 0 (by omega) (by omega)
  rw [hn] at hnone hexact
  have hsome := shortestAt_isSome (mem_candidates_integer n) (decimal_integer hexact)
  rw [hnone] at hsome
  cases hsome

theorem Fewest.exponent_nonneg_of_ge {m s : ℕ} {e : ℤ} (h : Fewest m s e) (hm : 0 < m)
    (hexact : Binary64.Exact (.finite false m)) (hge : 2 ^ 53 * one ≤ m) :
  0 ≤ e
  := by
  obtain ⟨n, hn⟩ := Binary64.one_dvd_of_ge hexact.1 hge
  apply h.exponent_nonneg hm hexact (hn.trans (Nat.mul_comm one n))

/-- The shortest decimal of an integer below `2 ^ 53` is that integer. -/
theorem Fewest.eq_integer {n s : ℕ} {e : ℤ} (h : Fewest (n * one) s e) (he : 0 ≤ e)
    (hn : n < 2 ^ 53) :
  s * 10 ^ e.toNat = n
  := by
  have hround := roundScaled_of_denotes h.denotes
  rw [show (-e).toNat = 0 by omega, Nat.pow_zero] at hround
  rcases Nat.lt_or_ge (2 ^ 53) (s * 10 ^ e.toNat) with hgt | hle
  · -- beyond `2 ^ 53` it would be rounded to something there
    have hmono := Binary64.roundScaled_mono hgt.le Nat.one_pos
    rw [hround, Binary64.roundScaled_of_le le_rfl] at hmono
    have := Nat.le_of_mul_le_mul_right hmono Binary64.one_pos
    omega
  · rw [Binary64.roundScaled_of_le hle] at hround
    apply Nat.eq_of_mul_eq_mul_right Binary64.one_pos hround

/-! ### Notation -/

/-- The digits of a number without the zeros at their end. -/
def bareDigits (s : ℕ) : List Char :=
  (Nat.toDigits 10 s).rdropWhile (· = '0')

/-- Where the point stands in the decimal notation of `s` times the power `e` of ten. -/
def point (s : ℕ) (e : ℤ) : ℤ :=
  (Nat.toDigits 10 s).length + e

/-- The integer at the beginning of the decimal notation of `s` times the power `e` of ten: its
integer part where it is written without an exponent, its first digit where it has one. -/
def leadingInteger (s : ℕ) (e : ℤ) : ℕ :=
  if 0 < point s e ∧ point s e ≤ 21 then s * 10 ^ e.toNat / 10 ^ (-e).toNat
  else if -6 < point s e ∧ point s e ≤ 0 then 0
  else s / 10 ^ ((Nat.toDigits 10 s).length - 1)

theorem numberText_of_pos (neg : Bool) {m : ℕ} (hm : 0 < m) :
  numberText (.finite neg m)
    = (if neg then ['-'] else [])
      ++ layout (bareDigits (shortest m).1) (point (shortest m).1 (shortest m).2)
  := by
  unfold numberText
  split
  · contradiction
  · contradiction
  · rename_i heq
    cases heq
    contradiction
  · rename_i heq
    cases heq
    generalize shortest m = r
    obtain ⟨s, e⟩ := r
    rfl

theorem bareDigits_append (s : ℕ) :
  bareDigits s ++ List.replicate ((Nat.toDigits 10 s).length - (bareDigits s).length) '0'
    = Nat.toDigits 10 s
  := Decimal.rdropWhile_append_replicate _

theorem isDigit_of_mem_bareDigits {s : ℕ} {c : Char} (h : c ∈ bareDigits s) :
  Json.isDigit c = true
  := by
  apply Decimal.isDigit_of_mem_toDigits (n := s)
  rw [← bareDigits_append]
  apply List.mem_append_left _ h

/-- The digits begin with one that is not a zero. -/
theorem exists_bareDigits_cons {s : ℕ} (hs : 0 < s) :
  ∃ d ds, bareDigits s = d :: ds ∧ d ≠ '0'
  := by
  obtain ⟨c, cs, hcs, hc⟩ := Decimal.exists_toDigits_cons hs
  have happend := bareDigits_append s
  rw [hcs] at happend
  cases hbare : bareDigits s with
  | nil =>
      rw [hbare, List.nil_append] at happend
      have hmem : c ∈ List.replicate ((c :: cs).length - ([] : List Char).length) '0' := by
        rw [happend]
        apply List.mem_cons_self
      exact absurd (List.eq_of_mem_replicate hmem) hc
  | cons d ds =>
      rw [hbare, List.cons_append] at happend
      obtain ⟨rfl, -⟩ := List.cons.inj happend
      exact ⟨d, ds, rfl, hc⟩

theorem length_bareDigits_le (s : ℕ) :
  (bareDigits s).length ≤ (Nat.toDigits 10 s).length
  := by
  have := congrArg List.length (bareDigits_append s)
  rw [List.length_append] at this
  omega

theorem ofDigitChars_bareDigits (s : ℕ) :
  Nat.ofDigitChars 10 (bareDigits s) 0
      * 10 ^ ((Nat.toDigits 10 s).length - (bareDigits s).length)
    = s
  := by
  have hvalue : Nat.ofDigitChars 10 (Nat.toDigits 10 s) 0 = s := Nat.ofDigitChars_ten_toDigits
  rwa [← bareDigits_append, Nat.ofDigitChars_append, Nat.ofDigitChars_replicate_zero,
    Nat.mul_comm] at hvalue

/-- The first digits are the quotient by a power of ten. -/
theorem ofDigitChars_take_bareDigits {s k : ℕ} (hk : k ≤ (bareDigits s).length) :
  Nat.ofDigitChars 10 ((bareDigits s).take k) 0
    = s / 10 ^ ((Nat.toDigits 10 s).length - k)
  := by
  have htake : (bareDigits s).take k = (Nat.toDigits 10 s).take k := by
    conv_rhs => rw [← bareDigits_append s]
    rw [List.take_append_of_le_length hk]
  rw [htake, Decimal.ofDigitChars_take fun d hd => Decimal.isDigit_of_mem_toDigits hd,
    Nat.ofDigitChars_ten_toDigits]

/-- A number that is written without a point or an exponent is an integer and written with its
digits. -/
theorem layout_integer {s : ℕ} {e : ℤ} (hs : 0 < s) (hlength : (bareDigits s).length ≤ point s e)
    (hpoint : point s e ≤ 21) :
  layout (bareDigits s) (point s e) = Nat.toDigits 10 (leadingInteger s e) ∧
    leadingInteger s e * 10 ^ (-e).toNat = s * 10 ^ e.toNat
  := by
  obtain ⟨d, ds, hbare, hd⟩ := exists_bareDigits_cons hs
  have hpos : 0 < (bareDigits s).length := by simp [hbare]
  have hle := length_bareDigits_le s
  have hzeros : (point s e - (bareDigits s).length).toNat + (-e).toNat
      = (Nat.toDigits 10 s).length - (bareDigits s).length + e.toNat := by
    rw [point] at hlength ⊢
    omega
  have hvalue : Nat.ofDigitChars 10 (bareDigits s
      ++ List.replicate (point s e - (bareDigits s).length).toNat '0') 0 * 10 ^ (-e).toNat
      = s * 10 ^ e.toNat := by
    rw [Nat.ofDigitChars_append, Nat.ofDigitChars_replicate_zero, Nat.mul_right_comm,
      ← Nat.pow_add, hzeros, Nat.pow_add, Nat.mul_right_comm, Nat.mul_comm (10 ^ _),
      ofDigitChars_bareDigits]
  have hleading : leadingInteger s e = Nat.ofDigitChars 10 (bareDigits s
      ++ List.replicate (point s e - (bareDigits s).length).toNat '0') 0 := by
    rw [leadingInteger, if_pos ⟨by omega, hpoint⟩, ← hvalue,
      Nat.mul_div_cancel _ (Nat.pow_pos (by decide))]
  have hdigits : ∀ c ∈ bareDigits s
      ++ List.replicate (point s e - (bareDigits s).length).toNat '0', Json.isDigit c = true := by
    intro c hc
    rcases List.mem_append.mp hc with hc | hc
    · apply isDigit_of_mem_bareDigits hc
    · rw [List.eq_of_mem_replicate hc]
      decide
  rw [hleading]
  refine ⟨?_, hvalue⟩
  rw [layout, if_pos ⟨hlength, hpoint⟩]
  generalize List.replicate (point s e - (bareDigits s).length).toNat '0' = zeros at hdigits ⊢
  rw [hbare, List.cons_append] at hdigits ⊢
  rw [(Decimal.toDigits_ofDigitChars hdigits hd).1]

/-! ### The characters of texts -/

/-- A digit, or one of the other characters of the texts of numbers. -/
def IsNumeric (c : Char) : Prop :=
  Json.isDigit c = true ∨ c ∈ "-.e+NaInfinity".toList

theorem isNumeric_of_mem_exponent {n : ℤ} {c : Char}
    (h : c ∈ (if 0 < n then '+' else '-') :: Nat.toDigits 10 (n - 1).natAbs) :
  IsNumeric c
  := by
  rcases List.mem_cons.mp h with rfl | h
  · right
    split_ifs <;> simp
  · exact .inl (Decimal.isDigit_of_mem_toDigits h)

theorem isNumeric_of_mem_layout {ds : List Char} (hds : ∀ d ∈ ds, Json.isDigit d = true) {n : ℤ}
    {c : Char} (h : c ∈ layout ds n) :
  IsNumeric c
  := by
  have hzero {m : ℕ} (hc : c ∈ List.replicate m '0') : IsNumeric c := by
    left
    rw [List.eq_of_mem_replicate hc]
    decide
  unfold layout at h
  split at h
  · rcases List.mem_append.mp h with h | h
    · exact .inl (hds c h)
    · apply hzero h
  split at h
  · rcases List.mem_append.mp h with h | h
    · exact .inl (hds c (List.mem_of_mem_take h))
    · rcases List.mem_cons.mp h with rfl | h
      · exact .inr (by simp)
      · exact .inl (hds c (List.mem_of_mem_drop h))
  split at h
  · rcases List.mem_append.mp h with h | h
    · rcases List.mem_cons.mp h with rfl | h
      · exact .inl (by decide)
      · rcases List.mem_cons.mp h with rfl | h
        · exact .inr (by simp)
        · apply hzero h
    · exact .inl (hds c h)
  · dsimp only at h
    generalize he : (if 0 < n then '+' else '-') :: Nat.toDigits 10 (n - 1).natAbs = e at h
    have hexponent : c ∈ 'e' :: e → IsNumeric c := by
      intro h
      rcases List.mem_cons.mp h with rfl | h
      · exact .inr (by simp)
      · rw [← he] at h
        apply isNumeric_of_mem_exponent h
    split at h
    · cases h
    · rcases List.mem_cons.mp h with rfl | h
      · exact .inl (hds _ List.mem_cons_self)
      · apply hexponent h
    · rcases List.mem_append.mp h with h | h
      · rcases List.mem_cons.mp h with rfl | h
        · exact .inl (hds _ List.mem_cons_self)
        · rcases List.mem_cons.mp h with rfl | h
          · exact .inr (by simp)
          · exact .inl (hds _ (List.mem_cons_of_mem _ h))
      · apply hexponent h

/-- The text of a number has no other characters. -/
theorem isNumeric_of_mem_numberText {x : Binary64} {c : Char} (h : c ∈ numberText x) :
  IsNumeric c
  := by
  have hsign {neg : Bool} (h : c ∈ if neg then ['-'] else []) : IsNumeric c := by
    cases neg with
    | true =>
        rw [List.mem_singleton.mp h]
        exact .inr (by simp)
    | false => cases h
  cases x with
  | nan =>
      right
      revert h
      simp [numberText]
      tauto
  | infinite neg =>
      rcases List.mem_append.mp h with h | h
      · apply hsign h
      · right
        revert h
        simp
        tauto
  | finite neg m =>
      rcases Nat.eq_zero_or_pos m with rfl | hm
      · rw [List.mem_singleton.mp h]
        exact .inl (by decide)
      · rw [numberText_of_pos neg hm] at h
        rcases List.mem_append.mp h with h | h
        · apply hsign h
        · apply isNumeric_of_mem_layout (fun d hd => isDigit_of_mem_bareDigits hd) h

/-! ### What `parseInt` reads -/

/-- A text that begins with digits of a value, and is not hexadecimal. -/
structure Begins (value : ℕ) (cs ds rest : List Char) : Prop where
  split : cs = ds ++ rest
  ne_nil : ds ≠ []
  digits : ∀ c ∈ ds, Json.isDigit c = true
  stops : ∀ c ∈ rest.head?, Json.isDigit c = false
  value_eq : Nat.ofDigitChars 10 ds 0 = value
  decimal : hexPrefixed cs = none

theorem hexPrefixed_of_ne {d : Char} (hd : d ≠ '0') (cs : List Char) :
  hexPrefixed (d :: cs) = none
  := by
  unfold hexPrefixed
  split
  · rename_i heq
    exact absurd (List.cons.inj heq).1 hd
  · rename_i heq
    exact absurd (List.cons.inj heq).1 hd
  · rfl

theorem Begins.parseInt {value : ℕ} {cs ds rest : List Char} (h : Begins value cs ds rest)
    (neg : Bool) :
  Js.parseInt ((if neg then ['-'] else []) ++ cs) none = Binary64.round neg value 1
  := by
  obtain ⟨d, ds', hds⟩ := List.exists_cons_of_ne_nil h.ne_nil
  have htake : cs.takeWhile Json.isDigit = ds := by
    rw [h.split, List.takeWhile_append_of_pos h.digits]
    cases hrest : rest with
    | nil => simp
    | cons c cs =>
        have := h.stops c (by simp [hrest])
        simp [this]
  have hread := integerIn_of_takeWhile htake h.ne_nil neg
  rw [h.value_eq] at hread
  have hcs : cs = d :: (ds' ++ rest) := by rw [h.split, hds, List.cons_append]
  have hd : Json.isDigit d := h.digits d (by simp [hds])
  have hdecimal := h.decimal
  rw [hcs] at hread hdecimal ⊢
  cases neg with
  | true =>
      have hsign : sign ((['-'] ++ d :: (ds' ++ rest)).dropWhile isWhiteSpace)
          = (true, d :: (ds' ++ rest)) := by
        rw [List.singleton_append, List.dropWhile_cons_of_neg (by decide)]
        rfl
      rw [if_pos rfl, Js.parseInt, hsign]
      simp only [hdecimal]
      apply hread
  | false =>
      rw [if_neg Bool.false_ne_true, List.nil_append, Js.parseInt, sign_dropWhile_of_isDigit hd]
      simp only [hdecimal]
      apply hread

theorem begins_take {s k : ℕ} (hs : 0 < s) (hk : 0 < k) (hle : k ≤ (bareDigits s).length)
    {rest : List Char} (hrest : ∀ c ∈ rest.head?, Json.isDigit c = false) :
  Begins (s / 10 ^ ((Nat.toDigits 10 s).length - k)) ((bareDigits s).take k ++ rest)
    ((bareDigits s).take k) rest
  where
    split := rfl
    ne_nil := by
      rw [ne_eq, List.take_eq_nil_iff, not_or]
      constructor
      · omega
      · apply List.ne_nil_of_length_pos (by omega)
    digits := fun c hc => isDigit_of_mem_bareDigits (List.mem_of_mem_take hc)
    stops := hrest
    value_eq := ofDigitChars_take_bareDigits hle
    decimal := by
      obtain ⟨d, ds, hbare, hd⟩ := exists_bareDigits_cons hs
      obtain ⟨k, rfl⟩ := Nat.exists_eq_succ_of_ne_zero hk.ne'
      rw [hbare, List.take_succ_cons, List.cons_append]
      apply hexPrefixed_of_ne hd

/-- The notation of an integer with 21 digits at most is its numeral. -/
theorem begins_integer {s : ℕ} (hs : 0 < s) {e : ℤ} (hlength : (bareDigits s).length ≤ point s e)
    (hshort : point s e ≤ 21) :
  Begins (leadingInteger s e) (layout (bareDigits s) (point s e))
    (Nat.toDigits 10 (leadingInteger s e)) []
  := by
  obtain ⟨htext, hvalue⟩ := layout_integer hs hlength hshort
  have hleading : 0 < leadingInteger s e := by
    apply Nat.pos_of_ne_zero
    intro hzero
    rw [hzero, Nat.zero_mul] at hvalue
    have := Nat.mul_pos hs (Nat.pow_pos (n := e.toNat) (show 0 < 10 by decide))
    omega
  obtain ⟨c, cs, hcs, hc⟩ := Decimal.exists_toDigits_cons hleading
  rw [htext]
  exact {
    split := (List.append_nil _).symm
    ne_nil := Nat.toDigits_ne_nil
    digits := fun c hc => Decimal.isDigit_of_mem_toDigits hc
    stops := by simp
    value_eq := Nat.ofDigitChars_ten_toDigits
    decimal := by
      rw [hcs]
      apply hexPrefixed_of_ne hc }

/-- The decimal notation of a number begins with its leading integer. -/
theorem begins_layout {s : ℕ} (hs : 0 < s) (e : ℤ) :
  ∃ ds rest, Begins (leadingInteger s e) (layout (bareDigits s) (point s e)) ds rest
  := by
  obtain ⟨d, ds, hbare, hd⟩ := exists_bareDigits_cons hs
  have hlength := length_bareDigits_le s
  have hpos : 0 < (bareDigits s).length := by simp [hbare]
  by_cases hinteger : (bareDigits s).length ≤ point s e ∧ point s e ≤ 21
  · exact ⟨_, _, begins_integer hs hinteger.1 hinteger.2⟩
  · rw [layout, if_neg hinteger, leadingInteger]
    by_cases hinside : 0 < point s e ∧ point s e ≤ 21
    · -- the point stands between the digits
      rw [if_pos hinside, if_pos hinside]
      have hshort : point s e < (bareDigits s).length := by omega
      have hp : e.toNat = 0 := by
        rw [point] at hshort
        omega
      have hr : (-e).toNat = (Nat.toDigits 10 s).length - (point s e).toNat := by
        rw [point] at hshort hinside ⊢
        omega
      rw [hp, hr, Nat.pow_zero, Nat.mul_one]
      use (bareDigits s).take (point s e).toNat, '.' :: (bareDigits s).drop (point s e).toNat
      apply begins_take hs (by omega) (by omega) (by simp [Json.isDigit])
    · rw [if_neg hinside, if_neg hinside]
      by_cases hzero : -6 < point s e ∧ point s e ≤ 0
      · rw [if_pos hzero, if_pos hzero]
        refine ⟨['0'], '.' :: List.replicate (-point s e).toNat '0' ++ bareDigits s, rfl,
          by simp, by simp [Json.isDigit], by simp [Json.isDigit], rfl, rfl⟩
      · -- one digit stands before the point or the exponent
        rw [if_neg hzero, if_neg hzero]
        have htake : (bareDigits s).take 1 = [d] := by
          rw [hbare, List.take_succ_cons, List.take_zero]
        have hone (rest : List Char) (hrest : ∀ c ∈ rest.head?, Json.isDigit c = false) :
            ∃ ds rest',
              Begins (s / 10 ^ ((Nat.toDigits 10 s).length - 1)) (d :: rest) ds rest' := by
          have := begins_take hs (by decide) hpos hrest
          rw [htake] at this
          exact ⟨_, _, this⟩
        rw [hbare]
        cases ds with
        | nil =>
            apply hone
            simp [Json.isDigit]
        | cons d' ds =>
            apply hone
            simp [Json.isDigit]

/-- **What `parseInt` reads of the text of a number.** -/
theorem parseInt_numberText (neg : Bool) {m : ℕ} (hm : 0 < m)
    (hs : 0 < (shortest m).1) :
  parseInt (numberText (.finite neg m)) none
    = Binary64.round neg (leadingInteger (shortest m).1 (shortest m).2) 1
  := by
  obtain ⟨ds, rest, hbegins⟩ := begins_layout hs (shortest m).2
  rw [numberText_of_pos neg hm, hbegins.parseInt]

/-! ### The number that `parseInt` gives -/

/-- The shortest decimal of a number other than zero is not zero. -/
theorem Fewest.pos {m s : ℕ} {e : ℤ} (h : Fewest m s e) (hm : 0 < m) :
  0 < s
  := by
  apply Nat.pos_of_ne_zero
  rintro rfl
  have hround := roundScaled_of_denotes h.denotes
  rw [Nat.zero_mul] at hround
  have hzero : roundScaled 0 (10 ^ (-e).toNat) = 0 := by
    have hscale := Binary64.roundScaled_mul 0 1 (Nat.pow_pos (n := (-e).toNat) (by decide : 0 < 10))
    rw [Nat.zero_mul, Nat.one_mul] at hscale
    rw [hscale, Binary64.roundScaled_of_le (Nat.zero_le _), Nat.zero_mul]
  omega

theorem exact_integer {n : ℕ} (h : n < 2 ^ 53) :
  Binary64.Exact (.finite false (n * one))
  := by
  use Binary64.step_dvd h.le 1074
  apply Nat.mul_lt_mul_of_pos_right _ Binary64.one_pos
  apply h.trans (Nat.pow_lt_pow_right (by decide) (by decide))

/-- The point stands behind the place `c` in a number from the power `c` of ten on. -/
theorem lt_point_iff {s : ℕ} (hs : 0 < s) (e c : ℤ) :
  c < point s e ↔ 10 ^ c.toNat * 10 ^ (-e).toNat ≤ s * 10 ^ e.toNat * 10 ^ (-c).toNat
  := by
  have hlow := Decimal.pow_length_toDigits_le hs
  have hhigh := Decimal.lt_pow_length_toDigits s
  have hlength := Nat.length_toDigits_pos (b := 10) (n := s)
  have hpow : 0 < 10 ^ (e.toNat + (-c).toNat) := Nat.pow_pos (by decide)
  rw [point, Nat.mul_assoc, ← Nat.pow_add, ← Nat.pow_add]
  constructor
  · intro hlt
    calc 10 ^ (c.toNat + (-e).toNat)
        ≤ 10 ^ ((Nat.toDigits 10 s).length - 1 + (e.toNat + (-c).toNat)) :=
          Nat.pow_le_pow_right (by decide) (by omega)
      _ = 10 ^ ((Nat.toDigits 10 s).length - 1) * 10 ^ (e.toNat + (-c).toNat) := Nat.pow_add ..
      _ ≤ s * 10 ^ (e.toNat + (-c).toNat) := Nat.mul_le_mul_right _ hlow
  · intro hle
    have hlt := hle.trans_lt (Nat.mul_lt_mul_of_pos_right hhigh hpow)
    rw [← Nat.pow_add] at hlt
    have := (Nat.pow_lt_pow_iff_right (by decide)).mp hlt
    omega

/-- The text of an integer below `2 ^ 53` are its digits. -/
theorem numberText_integer (neg : Bool) {n : ℕ} (hn : 0 < n) (hlt : n < 2 ^ 53) :
  numberText (.finite neg (n * one))
    = (if neg then ['-'] else []) ++ Nat.toDigits 10 n
  := by
  have hm : 0 < n * one := Nat.mul_pos hn Binary64.one_pos
  have hexact := exact_integer hlt
  have hfewest := fewest_shortest hm hexact
  have he := hfewest.exponent_nonneg hm hexact rfl
  have hvalue := hfewest.eq_integer he hlt
  have hr : (-(shortest (n * one)).2).toNat = 0 := by omega
  have hpoint : ¬ 16 < point (shortest (n * one)).1 (shortest (n * one)).2 := by
    rw [lt_point_iff (hfewest.pos hm), hvalue, hr]
    have : (16 : ℤ).toNat = 16 ∧ (-16 : ℤ).toNat = 0 := by decide
    rw [this.1, this.2]
    omega
  have hlength : ((bareDigits (shortest (n * one)).1).length : ℤ)
      ≤ point (shortest (n * one)).1 (shortest (n * one)).2 := by
    have := length_bareDigits_le (shortest (n * one)).1
    rw [point]
    omega
  obtain ⟨htext, hleading⟩ := layout_integer (hfewest.pos hm) hlength (by omega)
  rw [hr, Nat.pow_zero, Nat.mul_one, hvalue] at hleading
  rw [numberText_of_pos neg hm, htext, hleading]

/-- The integer at the beginning of the text of a number. -/
def truncated (m : ℕ) : ℕ :=
  leadingInteger (shortest m).1 (shortest m).2

/-- Where a text goes on after its integer, that integer is below `2 ^ 53`. -/
theorem truncated_lt {m : ℕ} (hm : 0 < m) (hexact : Binary64.Exact (.finite false m))
    (h : ¬ ((bareDigits (shortest m).1).length ≤ point (shortest m).1 (shortest m).2 ∧
      point (shortest m).1 (shortest m).2 ≤ 21)) :
  truncated m < 2 ^ 53
  := by
  have hfewest := fewest_shortest hm hexact
  have hvalue := roundScaled_of_denotes hfewest.denotes
  have hlength := length_bareDigits_le (shortest m).1
  have hpow : 0 < 10 ^ (-(shortest m).2).toNat := Nat.pow_pos (by decide)
  rw [truncated, leadingInteger]
  split_ifs with hinside hzero
  · -- a number with a fraction is below `2 ^ 53`
    have hfraction : m < 2 ^ 53 * one := by
      apply Nat.lt_of_not_le
      intro hge
      have he := hfewest.exponent_nonneg_of_ge hm hexact hge
      clear hge
      apply h
      rw [point] at hinside ⊢
      omega
    rw [← Binary64.roundScaled_of_le (le_refl (2 ^ 53)), ← hvalue] at hfraction
    apply (Nat.div_lt_iff_lt_mul hpow).mpr
    have := Binary64.lt_of_roundScaled_lt hpow Nat.one_pos hfraction
    rwa [Nat.mul_one] at this
  · decide
  · -- one digit
    apply (Nat.div_lt_iff_lt_mul (Nat.pow_pos (by decide))).mpr
    have hlt := Decimal.lt_pow_length_toDigits (shortest m).1
    have hpos := Nat.length_toDigits_pos (b := 10) (n := (shortest m).1)
    obtain ⟨k, hk⟩ := Nat.exists_eq_succ_of_ne_zero hpos.ne'
    rw [hk, Nat.pow_succ] at hlt
    rw [hk, Nat.succ_sub_one]
    omega

/-- **What `parseInt` reads of the text of a number** is a number with the digits of the integer at
its beginning as text. -/
theorem numberText_parseInt (neg : Bool) {m : ℕ} (hm : 0 < m)
    (hexact : Binary64.Exact (.finite false m)) :
  ∃ m', parseInt (numberText (.finite neg m)) none = .finite neg m' ∧
    numberText (.finite neg m')
      = if truncated m = 0 then ['0']
        else (if neg then ['-'] else []) ++ Nat.toDigits 10 (truncated m)
  := by
  have hfewest := fewest_shortest hm hexact
  have hs := hfewest.pos hm
  have hvalue := roundScaled_of_denotes hfewest.denotes
  rw [parseInt_numberText neg hm hs, ← truncated]
  by_cases hinteger : (bareDigits (shortest m).1).length ≤ point (shortest m).1 (shortest m).2 ∧
      point (shortest m).1 (shortest m).2 ≤ 21
  · -- the whole text is read
    obtain ⟨htext, hleading⟩ := layout_integer hs hinteger.1 hinteger.2
    rw [← truncated] at htext hleading
    have hround : roundScaled (truncated m) 1 = m := by
      have hscale := Binary64.roundScaled_mul (truncated m) 1
        (Nat.pow_pos (n := (-(shortest m).2).toNat) (show 0 < 10 by decide))
      rw [← hscale, hleading, Nat.one_mul, hvalue]
    have hne : truncated m ≠ 0 := by
      intro hzero
      rw [hzero, Binary64.roundScaled_of_le (Nat.zero_le _), Nat.zero_mul] at hround
      omega
    use m
    rw [Binary64.round, hround, if_pos hexact.2, numberText_of_pos neg hm, htext, if_neg hne]
    use rfl
  · have hlt := truncated_lt hm hexact hinteger
    rw [Binary64.round_of_le (by decide) hlt.le, Binary64.roundScaled_of_le hlt.le]
    refine ⟨_, rfl, ?_⟩
    by_cases hzero : truncated m = 0
    · rw [if_pos hzero, hzero, Nat.zero_mul]
      rfl
    · rw [if_neg hzero, numberText_integer neg (Nat.pos_of_ne_zero hzero) hlt]

/-! ### Where the integer lies -/

/-- The shortest decimal of a number is not below a bound exactly when the number is not below
what the bound is rounded to. -/
theorem le_shortest_iff {a d : ℕ} (hd : 0 < d)
    (hbound : a * 10 ^ (-(shortest (roundScaled a d)).2).toNat
      ≤ (shortest (roundScaled a d)).1 * 10 ^ (shortest (roundScaled a d)).2.toNat * d)
    {m : ℕ} (hm : 0 < m) (hexact : Binary64.Exact (.finite false m)) :
  a * 10 ^ (-(shortest m).2).toNat ≤ (shortest m).1 * 10 ^ (shortest m).2.toNat * d
    ↔ roundScaled a d ≤ m
  := by
  have hvalue := roundScaled_of_denotes (fewest_shortest hm hexact).denotes
  have hpow : 0 < 10 ^ (-(shortest m).2).toNat := Nat.pow_pos (by decide)
  constructor
  · intro hle
    have := Binary64.roundScaled_le_roundScaled hd hpow hle
    rwa [hvalue] at this
  · intro hle
    rcases Nat.lt_or_eq_of_le hle with hlt | heq
    · rw [← hvalue] at hlt
      apply (Binary64.lt_of_roundScaled_lt hd hpow hlt).le
    · rw [← heq]
      apply hbound

/-- A number from `10 ^ 21` on is written with an exponent. -/
theorem lt_point_21_iff {m : ℕ} (hm : 0 < m) (hexact : Binary64.Exact (.finite false m)) :
  21 < point (shortest m).1 (shortest m).2 ↔ 10 ^ 21 * one ≤ m
  := by
  have hround : roundScaled (10 ^ 21) 1 = 10 ^ 21 * one := by decide +kernel
  have hle := le_shortest_iff (a := 10 ^ 21) Nat.one_pos (by decide +kernel) hm hexact
  rw [hround] at hle
  rw [lt_point_iff ((fewest_shortest hm hexact).pos hm), ← hle]
  rfl

/-- A number from one on has digits before its point. -/
theorem lt_point_0_iff {m : ℕ} (hm : 0 < m) (hexact : Binary64.Exact (.finite false m)) :
  0 < point (shortest m).1 (shortest m).2 ↔ one ≤ m
  := by
  have hround : roundScaled 1 1 = one := by decide +kernel
  have hle := le_shortest_iff (a := 1) Nat.one_pos (by decide +kernel) hm hexact
  rw [hround] at hle
  rw [lt_point_iff ((fewest_shortest hm hexact).pos hm), ← hle]
  rfl

/-- A number below what `10 ^ (-6)` is rounded to is written with an exponent. -/
theorem lt_point_neg_iff {m : ℕ} (hm : 0 < m) (hexact : Binary64.Exact (.finite false m)) :
  -6 < point (shortest m).1 (shortest m).2 ↔ roundScaled 1 (10 ^ 6) ≤ m
  := by
  have hle := le_shortest_iff (a := 1) (d := 10 ^ 6) (by decide) (by decide +kernel) hm hexact
  rw [lt_point_iff ((fewest_shortest hm hexact).pos hm), ← hle]
  rfl

/-- The first digit of a number counts. -/
theorem first_digit_bounds {s : ℕ} (hs : 0 < s) :
  0 < s / 10 ^ ((Nat.toDigits 10 s).length - 1) ∧ s / 10 ^ ((Nat.toDigits 10 s).length - 1) < 10
  := by
  have hpow : 0 < 10 ^ ((Nat.toDigits 10 s).length - 1) := Nat.pow_pos (by decide)
  constructor
  · apply Nat.div_pos (Decimal.pow_length_toDigits_le hs) hpow
  · have hlt := Decimal.lt_pow_length_toDigits s
    have hpos := Nat.length_toDigits_pos (b := 10) (n := s)
    apply (Nat.div_lt_iff_lt_mul hpow).mpr
    rwa [← Nat.pow_succ', Nat.succ_eq_add_one, Nat.sub_add_cancel hpos]

/-- The integer at the beginning of the text of a number is zero for the numbers below one that are
written without an exponent. -/
theorem truncated_eq_zero_iff {m : ℕ} (hm : 0 < m) (hexact : Binary64.Exact (.finite false m)) :
  truncated m = 0 ↔ roundScaled 1 (10 ^ 6) ≤ m ∧ m < one
  := by
  have hs := (fewest_shortest hm hexact).pos hm
  rw [← lt_point_neg_iff hm hexact, ← Nat.not_le, ← lt_point_0_iff hm hexact, truncated,
    leadingInteger]
  split_ifs with hinside hzero
  · have hge := (lt_point_iff hs _ 0).mp hinside.1
    have hpos : 0 < (shortest m).1 * 10 ^ (shortest m).2.toNat / 10 ^ (-(shortest m).2).toNat := by
      apply Nat.div_pos _ (Nat.pow_pos (by decide))
      simpa using hge
    constructor
    · omega
    · exact fun h => absurd hinside.1 h.2
  · exact ⟨fun _ => ⟨hzero.1, by omega⟩, fun _ => rfl⟩
  · have := (first_digit_bounds hs).1
    constructor <;> omega

/-- The integer at the beginning of the text of a number has 64 bits when the number is below
`2 ^ 64`, or is so great that it is written with an exponent. -/
theorem truncated_lt_iff {m : ℕ} (hm : 0 < m) (hexact : Binary64.Exact (.finite false m)) :
  truncated m < 2 ^ 64 ↔ m < 2 ^ 64 * one ∨ 10 ^ 21 * one ≤ m
  := by
  have hs := (fewest_shortest hm hexact).pos hm
  have hround : roundScaled (2 ^ 64) 1 = 2 ^ 64 * one := by decide +kernel
  have hle := le_shortest_iff (a := 2 ^ 64) Nat.one_pos (by decide +kernel) hm hexact
  rw [hround, Nat.mul_one] at hle
  have hpow : 0 < 10 ^ (-(shortest m).2).toNat := Nat.pow_pos (by decide)
  have hbelow (h : ¬ 0 < point (shortest m).1 (shortest m).2) :
      (shortest m).1 * 10 ^ (shortest m).2.toNat < 2 ^ 64 * 10 ^ (-(shortest m).2).toNat := by
    rw [lt_point_iff hs] at h
    simp only [Int.toNat_zero, neg_zero, Nat.pow_zero, Nat.one_mul, Nat.mul_one] at h
    omega
  rw [← lt_point_21_iff hm hexact, ← Nat.not_le (b := m), ← hle, Nat.not_le, truncated,
    leadingInteger]
  split_ifs with hinside hzero
  · rw [Nat.div_lt_iff_lt_mul hpow]
    constructor
    · exact .inl
    · rintro (hlt | hlt)
      · apply hlt
      · omega
  · exact ⟨fun _ => .inl (hbelow (by omega)), fun _ => by decide⟩
  · have hdigit := (first_digit_bounds hs).2
    constructor
    · intro _
      by_cases hgt : 21 < point (shortest m).1 (shortest m).2
      · exact .inr hgt
      · exact .inl (hbelow (by omega))
    · intro _
      apply hdigit.trans
      decide

end Js
