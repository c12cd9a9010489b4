import Mathlib.Algebra.Order.Ring.Nat
import Mathlib.Tactic.Ring

/-!
# Binary floating-point numbers of 64 bits

The magnitude of a finite number is a multiple of `2 ^ (-1074)`, and is given by that
multiple. `round a d` is the number nearest the quotient of `a` by `d`, ties going to the even
significand, or infinity when there is none so large.

* `roundScaled_mono`: rounding is monotone.
* `roundScaled_of_close`: a quotient less than one part in `2 ^ 54` away from a number is rounded
  to it.
* `roundScaled_of_le`: integers up to `2 ^ 53` are rounded to themselves.
-/

/-- A number: not a number, an infinity, or a sign and a multiple of `2 ^ (-1074)`. -/
inductive Binary64 where
  | nan
  | infinite (neg : Bool)
  | finite (neg : Bool) (m : ℕ)
  deriving DecidableEq

namespace Binary64

/-! ### Rounding -/

/-- The multiple of `2 ^ (-1074)` that one is. -/
def one : ℕ := 2 ^ 1074

/-- The integer nearest the quotient of `a` by `d`, the even one of two. -/
def nearest (a d : ℕ) : ℕ :=
  let q := a / d
  let r := a % d
  if 2 * r < d ∨ (2 * r = d ∧ q % 2 = 0) then q else q + 1

/-- The step between numbers in the binade of the multiple `q`. -/
def step (q : ℕ) : ℕ := 2 ^ (Nat.log2 q - 52)

/-- The multiple of `2 ^ (-1074)` that the quotient of `a` by `d` is rounded to, were there no
greatest number. -/
def roundScaled (a d : ℕ) : ℕ :=
  let u := step (a * one / d)
  nearest (a * one) (d * u) * u

/-- The number that the quotient of `a` by `d`, with a sign, is rounded to. -/
def round (neg : Bool) (a d : ℕ) : Binary64 :=
  let m := roundScaled a d
  if m < 2 ^ 1024 * one then .finite neg m else .infinite neg

/-- What can be a number: a multiple that is on its step and not too great. -/
def Exact : Binary64 → Prop
  | .finite _ m => step m ∣ m ∧ m < 2 ^ 1024 * one
  | _ => True

/-! ### Order -/

/-- The multiple that a finite number is, with its sign. -/
def signed (neg : Bool) (m : ℕ) : ℤ := if neg then -(m : ℤ) else m

/-- One number is below another. -/
def lt : Binary64 → Binary64 → Bool
  | .nan, _ => false
  | _, .nan => false
  | .infinite neg, .infinite neg' => neg && !neg'
  | .infinite neg, .finite _ _ => neg
  | .finite _ _, .infinite neg' => !neg'
  | .finite neg m, .finite neg' m' => decide (signed neg m < signed neg' m')

/-- Whether two numbers are equal. The two zeros are. -/
def same : Binary64 → Binary64 → Bool
  | .infinite neg, .infinite neg' => neg = neg'
  | .finite neg m, .finite neg' m' => signed neg m = signed neg' m'
  | _, _ => false

theorem one_pos :
  0 < one
  := by
  rw [one]
  apply Nat.two_pow_pos

/-! ### Rounding is monotone -/

theorem nearest_cases (a d : ℕ) :
  (nearest a d = a / d ∧ 2 * (a % d) ≤ d) ∨ (nearest a d = a / d + 1 ∧ d ≤ 2 * (a % d))
  := by
  simp only [nearest]
  split_ifs with h
  · left
    omega
  · right
    omega

theorem nearest_mono {a a' : ℕ} (h : a ≤ a') (d : ℕ) :
  nearest a d ≤ nearest a' d
  := by
  have hq := Nat.div_le_div_right (c := d) h
  rcases Nat.lt_or_eq_of_le hq with hlt | heq
  · rcases nearest_cases a d with h₁ | h₁ <;> rcases nearest_cases a' d with h₂ | h₂ <;> omega
  · -- in one cell the remainders decide
    have hm := Nat.div_add_mod a d
    have hm' := Nat.div_add_mod a' d
    rw [heq] at hm
    have hr : a % d ≤ a' % d := by omega
    simp only [nearest, heq]
    split_ifs <;> omega

/-- A multiple of `d` is its own nearest. -/
theorem nearest_mul (k : ℕ) {d : ℕ} (hd : 0 < d) :
  nearest (k * d) d = k
  := by
  simp [nearest, Nat.mul_div_cancel k hd, hd]

/-- Rounding to a step lies between multiples of it. -/
theorem nearest_mul_le {a d k : ℕ} (hd : 0 < d) (h : a ≤ k * d) :
  nearest a d ≤ k
  := by
  have := nearest_mono h d
  rwa [nearest_mul k hd] at this

theorem le_nearest_mul {a d k : ℕ} (hd : 0 < d) (h : k * d ≤ a) :
  k ≤ nearest a d
  := by
  have := nearest_mono h d
  rwa [nearest_mul k hd] at this

theorem step_pos (q : ℕ) :
  0 < step q
  := Nat.two_pow_pos _

theorem log2_mono {q q' : ℕ} (h : q ≤ q') :
  Nat.log2 q ≤ Nat.log2 q'
  := by
  rcases Nat.eq_zero_or_pos q with rfl | hpos
  · simp
  · apply (Nat.le_log2 (by omega)).mpr
    apply (Nat.log2_self_le (by omega)).trans h

theorem step_mono {q q' : ℕ} (h : q ≤ q') :
  step q ≤ step q'
  := by
  apply Nat.pow_le_pow_right (by decide)
  apply Nat.sub_le_sub_right (log2_mono h)

/-- A number is below `2 ^ 53` steps of its binade. -/
theorem lt_step (q : ℕ) :
  q < 2 ^ 53 * step q
  := by
  calc q < 2 ^ (Nat.log2 q + 1) := Nat.lt_log2_self
    _ ≤ 2 ^ (53 + (Nat.log2 q - 52)) := Nat.pow_le_pow_right (by decide) (by omega)
    _ = 2 ^ 53 * step q := by rw [Nat.pow_add, step]

/-- A number in a later binade is at least `2 ^ 53` steps of an earlier one. -/
theorem step_le {q q' : ℕ} (h : step q < step q') :
  2 ^ 53 * step q ≤ 2 ^ 52 * step q' ∧ 2 ^ 52 * step q' ≤ q'
  := by
  have hexp : Nat.log2 q - 52 < Nat.log2 q' - 52 := (Nat.pow_lt_pow_iff_right (by decide)).mp h
  have hne : q' ≠ 0 := by
    rintro rfl
    simp at hexp
  constructor
  · rw [step, step, ← Nat.pow_add, ← Nat.pow_add]
    apply Nat.pow_le_pow_right (by decide)
    omega
  · have hle := Nat.log2_self_le hne
    have hlog : Nat.log2 q' = 52 + (Nat.log2 q' - 52) := by omega
    rwa [hlog, Nat.pow_add] at hle

theorem roundScaled_mono {a a' : ℕ} (h : a ≤ a') {d : ℕ} (hd : 0 < d) :
  roundScaled a d ≤ roundScaled a' d
  := by
  have hscaled : a * one ≤ a' * one := Nat.mul_le_mul_right _ h
  have hstep := step_mono (Nat.div_le_div_right (c := d) hscaled)
  simp only [roundScaled]
  rcases Nat.lt_or_eq_of_le hstep with hlt | heq
  · -- a power of two lies between the results
    obtain ⟨hle, hle'⟩ := step_le hlt
    have hlower : 2 ^ 52 * (d * step (a' * one / d)) ≤ a' * one := by
      rw [Nat.mul_left_comm]
      apply (Nat.mul_le_mul_left d hle').trans (Nat.mul_div_le _ _)
    have hupper : a * one ≤ 2 ^ 53 * (d * step (a * one / d)) := by
      have hbelow := (Nat.div_lt_iff_lt_mul hd).mp (lt_step (a * one / d))
      rw [Nat.mul_comm d, ← Nat.mul_assoc]
      apply Nat.le_of_lt hbelow
    have hpos := Nat.mul_pos hd (step_pos (a * one / d))
    have hpos' := Nat.mul_pos hd (step_pos (a' * one / d))
    calc nearest (a * one) (d * step (a * one / d)) * step (a * one / d)
        ≤ 2 ^ 53 * step (a * one / d) := Nat.mul_le_mul_right _ (nearest_mul_le hpos hupper)
      _ ≤ 2 ^ 52 * step (a' * one / d) := hle
      _ ≤ nearest (a' * one) (d * step (a' * one / d)) * step (a' * one / d) :=
        Nat.mul_le_mul_right _ (le_nearest_mul hpos' hlower)
  · rw [heq]
    apply Nat.mul_le_mul_right
    apply nearest_mono hscaled

/-! ### Rounding does not depend on how a quotient is written -/

theorem nearest_mul_mul (a d : ℕ) {c : ℕ} (hc : 0 < c) :
  nearest (a * c) (d * c) = nearest a d
  := by
  have hdouble : 2 * (a % d * c) = 2 * (a % d) * c := (Nat.mul_assoc 2 _ c).symm
  simp only [nearest, Nat.mul_div_mul_right a d hc, Nat.mul_mod_mul_right, hdouble,
    Nat.mul_lt_mul_right hc, Nat.mul_left_inj hc.ne']

theorem roundScaled_mul (a d : ℕ) {c : ℕ} (hc : 0 < c) :
  roundScaled (a * c) (d * c) = roundScaled a d
  := by
  have hscaled : a * c * one = a * one * c := Nat.mul_right_comm a c one
  simp only [roundScaled, hscaled, Nat.mul_div_mul_right _ d hc, Nat.mul_right_comm d c,
    nearest_mul_mul _ _ hc]

/-- Of two quotients the lesser is rounded to the lesser. -/
theorem roundScaled_le_roundScaled {a d a' d' : ℕ} (hd : 0 < d) (hd' : 0 < d')
    (h : a * d' ≤ a' * d) :
  roundScaled a d ≤ roundScaled a' d'
  := by
  rw [← roundScaled_mul a d hd', ← roundScaled_mul a' d' hd, Nat.mul_comm d' d]
  apply roundScaled_mono h (Nat.mul_pos hd hd')

/-- A quotient that is rounded to less is less. -/
theorem lt_of_roundScaled_lt {a d a' d' : ℕ} (hd : 0 < d) (hd' : 0 < d')
    (h : roundScaled a d < roundScaled a' d') :
  a * d' < a' * d
  := by
  by_contra hle
  have := roundScaled_le_roundScaled hd' hd (Nat.le_of_not_lt hle)
  omega

/-! ### What is close to a number is rounded to it -/

/-- The integer a quotient is less than half away from is its nearest. -/
theorem nearest_of_close {a d k : ℕ} (hlow : 2 * (k * d) < 2 * a + d)
    (hhigh : 2 * a < 2 * (k * d) + d) :
  nearest a d = k
  := by
  have hd : 0 < d := by omega
  have hdiv := Nat.div_add_mod a d
  have hmod := Nat.mod_lt a hd
  rw [Nat.mul_comm] at hdiv
  rcases Nat.lt_trichotomy (a / d) k with hlt | heq | hgt
  · -- the quotient is just below
    have hk : k = a / d + 1 := by
      by_contra hne
      have hle : (a / d + 2) * d ≤ k * d := Nat.mul_le_mul_right d (by omega)
      rw [Nat.add_mul] at hle
      omega
    rw [hk, Nat.add_mul] at hlow
    rw [nearest, if_neg (by omega), hk]
  · rw [heq] at hdiv
    rw [nearest, if_pos (by omega), heq]
  · have hle : (k + 1) * d ≤ a / d * d := Nat.mul_le_mul_right d hgt
    rw [Nat.add_mul] at hle
    omega

theorem step_dvd_step {q q' : ℕ} (h : q ≤ q') :
  step q ∣ step q'
  := by
  apply Nat.pow_dvd_pow
  apply Nat.sub_le_sub_right (log2_mono h)

/-- A number on its step is below `2 ^ 53 - 1` steps or is that. -/
theorem le_step {m : ℕ} (hm : step m ∣ m) :
  m + step m ≤ 2 ^ 53 * step m
  := by
  obtain ⟨k, hk⟩ := hm
  have hlt := lt_step m
  generalize step m = u at hk hlt ⊢
  subst hk
  rw [Nat.mul_comm (2 ^ 53)] at hlt ⊢
  have hk : k + 1 ≤ 2 ^ 53 := Nat.lt_of_mul_lt_mul_left hlt
  calc u * k + u = u * (k + 1) := by rw [Nat.mul_add, Nat.mul_one]
    _ ≤ u * 2 ^ 53 := Nat.mul_le_mul_left u hk

theorem two_mul_le_of_lt {q q' : ℕ} (h : 2 ^ 53 * step q < 2 ^ 52 * step q') :
  2 * (2 ^ 53 * step q) ≤ 2 ^ 52 * step q'
  := by
  rw [step, step, ← Nat.pow_add, ← Nat.pow_add] at h ⊢
  rw [← Nat.pow_succ']
  apply Nat.pow_le_pow_right (by decide)
  apply (Nat.pow_lt_pow_iff_right (by decide)).mp h

/-- What is on a step and beyond a multiple of it is at least a step further. -/
theorem add_le_of_dvd {u m k : ℕ} (hm : u ∣ m) (h : k * u < m) :
  k * u + u ≤ m
  := by
  obtain ⟨j, rfl⟩ := hm
  rw [Nat.mul_comm u] at h ⊢
  have hk : k + 1 ≤ j := Nat.lt_of_mul_lt_mul_right h
  calc k * u + u = (k + 1) * u := by rw [Nat.add_mul, Nat.one_mul]
    _ ≤ j * u := Nat.mul_le_mul_right u hk

/-- A quotient close to a number has a step that the number is on, and the number is no further
than `2 ^ 53` of these steps. -/
theorem step_of_close {a d m : ℕ} (hm : step m ∣ m) (hd : 0 < d)
    (hlow : 2 ^ 54 * (m * d) < 2 ^ 54 * a + m * d)
    (hhigh : 2 ^ 54 * a < 2 ^ 54 * (m * d) + m * d) :
  step (a / d) ∣ m ∧ m ≤ 2 ^ 53 * step (a / d)
  := by
  have hle : a / d * d ≤ a := Nat.div_mul_le_self a d
  have hlt : a < (a / d + 1) * d := by
    rw [Nat.mul_comm]
    apply Nat.lt_mul_div_succ a hd
  have habove : 2 ^ 54 * (a / d) < 2 ^ 54 * m + m := by
    apply Nat.lt_of_mul_lt_mul_right (a := d)
    rw [Nat.add_mul, Nat.mul_assoc, Nat.mul_assoc]
    omega
  have hbelow : 2 ^ 54 * m < 2 ^ 54 * (a / d + 1) + m := by
    apply Nat.lt_of_mul_lt_mul_right (a := d)
    rw [Nat.add_mul, Nat.mul_assoc, Nat.mul_assoc]
    omega
  have hq := lt_step (a / d)
  have hstep := lt_step m
  generalize a / d = q at *
  rcases Nat.lt_or_ge q m with hqm | hmq
  · use (step_dvd_step hqm.le).trans hm
    rcases Nat.lt_or_eq_of_le (step_mono hqm.le) with hne | heq
    · obtain ⟨hpow, hm'⟩ := step_le hne
      by_contra hgt
      rcases Nat.lt_or_eq_of_le hpow with hlt' | heq
      · -- the number is twice as far away as the quotient
        have hdouble : 2 * (2 ^ 53 * step q) ≤ 2 ^ 52 * step m := two_mul_le_of_lt hlt'
        omega
      · -- the number is a step further
        have hnext : 2 ^ 52 * step m + step m ≤ m := add_le_of_dvd hm (by omega)
        omega
    · omega
  · rcases Nat.lt_or_eq_of_le (step_mono hmq) with hne | heq
    · obtain ⟨hpow, hq'⟩ := step_le hne
      have := le_step hm
      omega
    · rw [← heq]
      exact ⟨hm, hstep.le⟩

/-- A quotient close to a number is rounded to it. -/
theorem roundScaled_of_close {a d m : ℕ} (hm : step m ∣ m) (hd : 0 < d)
    (hlow : 2 ^ 54 * (m * d) < 2 ^ 54 * (a * one) + m * d)
    (hhigh : 2 ^ 54 * (a * one) < 2 ^ 54 * (m * d) + m * d) :
  roundScaled a d = m
  := by
  obtain ⟨⟨k, hk⟩, hle⟩ := step_of_close hm hd hlow hhigh
  have hbound : m * d ≤ 2 ^ 53 * (d * step (a * one / d)) := by
    rw [Nat.mul_comm d, ← Nat.mul_assoc]
    apply Nat.mul_le_mul_right d hle
  have hmul : m * d = k * (d * step (a * one / d)) := by
    rw [hk]
    ring
  have hnearest : nearest (a * one) (d * step (a * one / d)) = k := by
    apply nearest_of_close
    · omega
    · omega
  rw [roundScaled, hnearest, Nat.mul_comm]
  exact hk.symm

/-! ### Integers -/

/-- An integer up to `2 ^ 53`, however scaled, is on its step. -/
theorem step_dvd {n : ℕ} (h : n ≤ 2 ^ 53) (e : ℕ) :
  step (n * 2 ^ e) ∣ n * 2 ^ e
  := by
  rcases Nat.lt_or_eq_of_le h with hlt | rfl
  · apply Nat.dvd_mul_left_of_dvd
    apply Nat.pow_dvd_pow
    rcases Nat.eq_zero_or_pos (n * 2 ^ e) with hzero | hpos
    · simp [hzero]
    · have hbelow : n * 2 ^ e < 2 ^ (53 + e) := by
        rw [Nat.pow_add]
        apply Nat.mul_lt_mul_of_pos_right hlt (Nat.two_pow_pos e)
      have hlog := (Nat.log2_lt (Nat.ne_of_gt hpos)).mpr hbelow
      omega
  · rw [← Nat.pow_add, step, Nat.log2_two_pow]
    apply Nat.pow_dvd_pow _ (by omega)

theorem step_dvd_pow (k e : ℕ) :
  step (2 ^ k * 2 ^ e) ∣ 2 ^ k * 2 ^ e
  := by
  rw [← Nat.pow_add, step, Nat.log2_two_pow]
  apply Nat.pow_dvd_pow _ (Nat.sub_le _ _)

theorem pow_dvd_step {m k o : ℕ} (ho : o = 2 ^ k) (h : 2 ^ 53 * o ≤ m) :
  o ∣ step m
  := by
  subst ho
  rw [← Nat.pow_add] at h
  have hpos : 0 < m := (Nat.two_pow_pos _).trans_le h
  have hlog := (Nat.le_log2 hpos.ne').mpr h
  apply Nat.pow_dvd_pow
  omega

/-- A number from `2 ^ 53` on is an integer. -/
theorem one_dvd_of_ge {m : ℕ} (hm : step m ∣ m) (h : 2 ^ 53 * one ≤ m) :
  one ∣ m
  := (pow_dvd_step one.eq_1 h).trans hm

/-- An integer on its step is rounded to itself. -/
theorem roundScaled_of_dvd {n : ℕ} (h : step (n * one) ∣ n * one) :
  roundScaled n 1 = n * one
  := by
  obtain ⟨k, hk⟩ := h
  have hnearest : nearest (n * one) (step (n * one)) = k := by
    have := nearest_mul k (step_pos (n * one))
    rwa [Nat.mul_comm k, ← hk] at this
  simp only [roundScaled, Nat.div_one, Nat.one_mul]
  rw [hnearest, Nat.mul_comm, ← hk]

/-- The integers up to `2 ^ 53` are numbers. -/
theorem roundScaled_of_le {n : ℕ} (h : n ≤ 2 ^ 53) :
  roundScaled n 1 = n * one
  := roundScaled_of_dvd (step_dvd h 1074)

/-- An integer up to a power of two is rounded to a finite number. -/
theorem round_of_le {n k : ℕ} (hk : k < 1024) (h : n ≤ 2 ^ k) (neg : Bool) :
  round neg n 1 = .finite neg (roundScaled n 1)
  := by
  have hle := roundScaled_mono h Nat.one_pos
  rw [roundScaled_of_dvd (step_dvd_pow k 1074)] at hle
  have hlt {n : ℕ} (hn : k < n) : 2 ^ k * one < 2 ^ n * one := by
    apply Nat.mul_lt_mul_of_pos_right _ one_pos
    apply Nat.pow_lt_pow_right Nat.one_lt_two hn
  simp only [round]
  rw [if_pos (hle.trans_lt (hlt hk))]

/-- Of two integers that are rounded to different numbers, the greater is rounded to the greater. -/
theorem lt_round_iff {a b k : ℕ} (hk : k < 1024) (ha : a ≤ 2 ^ k) (hb : b ≤ 2 ^ k) :
  (round false b 1).lt (round false a 1) = true ↔ b < a ∧ round false b 1 ≠ round false a 1
  := by
  rw [round_of_le hk ha, round_of_le hk hb]
  simp only [lt, signed, Bool.false_eq_true, if_false, decide_eq_true_eq, ne_eq,
    Binary64.finite.injEq, true_and, Int.ofNat_lt]
  constructor
  · intro hlt
    constructor
    · by_contra hle
      have := roundScaled_mono (Nat.le_of_not_lt hle) Nat.one_pos
      omega
    · apply Nat.ne_of_lt hlt
  · rintro ⟨hlt, hne⟩
    apply Nat.lt_of_le_of_ne (roundScaled_mono hlt.le Nat.one_pos) hne

/-- Different integers up to `2 ^ 53` are rounded to different numbers. -/
theorem round_ne_round {a b : ℕ} (ha : a ≤ 2 ^ 53) (hb : b ≤ 2 ^ 53) (h : a ≠ b) :
  round false a 1 ≠ round false b 1
  := by
  rw [round_of_le (by decide) ha, round_of_le (by decide) hb, roundScaled_of_le ha,
    roundScaled_of_le hb]
  intro heq
  apply h
  apply Nat.eq_of_mul_eq_mul_right one_pos (Binary64.finite.inj heq).2

end Binary64
