import Mathlib.Algebra.Order.Ring.Nat
import Mathlib.Data.List.DropRight
import InterchainEvents.Text.Utf8

/-!
# Texts and bytes in Rust

The functions of the standard library on `str` and `[u8]` that a contract reads values with:
comparison, trimming, splitting, and the parsing of unsigned integers.

* `compare_eq_lt_iff`: comparison is lexicographic order.
* `trimMatches_eq_iff` and `parseUInt_eq_some_iff` say what the results are without saying
  how they are found.
-/

namespace Rust

/-! ### Comparison -/

theorem compare_eq_lt_iff (a b : List UInt8) :
  compare a b = .lt ↔ a < b
  := by
  induction a generalizing b with
  | nil => cases b <;> simp
  | cons x a ih =>
      cases b with
      | nil => simp
      | cons y b =>
          rw [List.compare_cons_cons, Ordering.then_eq_lt, List.cons_lt_cons_iff, ih,
            Std.compare_eq_lt, Std.compare_eq_iff_eq]

theorem compare_eq_gt_iff (a b : List UInt8) :
  compare a b = .gt ↔ b < a
  := by
  induction a generalizing b with
  | nil => cases b <;> simp
  | cons x a ih =>
      cases b with
      | nil => simp
      | cons y b =>
          rw [List.compare_cons_cons, Ordering.then_eq_gt, List.cons_lt_cons_iff, ih,
            Std.compare_eq_gt, Std.compare_eq_iff_eq, eq_comm]

/-! ### Trimming -/

/-- The characters with the Unicode property `White_Space`. -/
def isWhitespace (c : Char) : Bool :=
  let n := c.toNat
  decide ((0x9 ≤ n ∧ n ≤ 0xD) ∨ n = 0x20 ∨ n = 0x85 ∨ n = 0xA0 ∨ n = 0x1680
    ∨ (0x2000 ≤ n ∧ n ≤ 0x200A) ∨ n = 0x2028 ∨ n = 0x2029 ∨ n = 0x202F ∨ n = 0x205F ∨ n = 0x3000)

/-- A text without the characters at either end that match. -/
def trimMatches (p : Char → Bool) (cs : List Char) : List Char :=
  (cs.dropWhile p).rdropWhile p

/-- A text without the white space at either end. -/
def trim (cs : List Char) : List Char :=
  trimMatches isWhitespace cs

/-- Neither end of a text matches. -/
def Trimmed (p : Char → Bool) (cs : List Char) : Prop :=
  (∀ c ∈ cs.head?, p c = false) ∧ (∀ c ∈ cs.getLast?, p c = false)

theorem dropWhile_of_head {p : Char → Bool} {pre cs : List Char} (hpre : pre.all p)
    (hcs : ∀ c ∈ cs.head?, p c = false) :
  (pre ++ cs).dropWhile p = cs
  := by
  rw [List.dropWhile_append_of_pos (by simpa using hpre)]
  cases cs with
  | nil => rfl
  | cons c cs =>
      have := hcs c rfl
      rw [List.dropWhile_cons_of_neg (by simp [this])]

theorem rdropWhile_of_getLast {p : Char → Bool} {cs post : List Char} (hpost : post.all p)
    (hcs : ∀ c ∈ cs.getLast?, p c = false) :
  (cs ++ post).rdropWhile p = cs
  := by
  rw [List.rdropWhile, List.reverse_append, dropWhile_of_head (by simpa using hpost),
    List.reverse_reverse]
  rwa [List.head?_reverse]

theorem trimMatches_of_trimmed {p : Char → Bool} {pre cs post : List Char} (hpre : pre.all p)
    (hpost : post.all p) (hcs : Trimmed p cs) :
  trimMatches p (pre ++ cs ++ post) = cs
  := by
  unfold trimMatches
  cases cs with
  | nil =>
      have hall : (pre ++ [] ++ post).dropWhile p = [] := by
        apply List.dropWhile_eq_nil_iff.mpr
        simp only [List.all_eq_true] at hpre hpost
        simpa [or_imp, forall_and] using ⟨hpre, hpost⟩
      rw [hall, List.rdropWhile_nil]
  | cons c cs =>
      rw [List.append_assoc, dropWhile_of_head hpre (by simpa using hcs.1),
        rdropWhile_of_getLast hpost hcs.2]

theorem head?_dropWhile_eq_false {p : Char → Bool} (cs : List Char) :
  ∀ c ∈ (cs.dropWhile p).head?, p c = false
  := by
  intro c hc
  have := List.head?_dropWhile_not p cs
  rw [Option.mem_def.mp hc] at this
  simpa using this

/-- What is left of a text is trimmed, and what is gone from its ends matched. -/
theorem trimMatches_spec (p : Char → Bool) (cs : List Char) :
  (∃ pre post, pre.all p ∧ post.all p ∧ cs = pre ++ trimMatches p cs ++ post)
    ∧ Trimmed p (trimMatches p cs)
  := by
  have hsplit := List.takeWhile_append_dropWhile (p := p) (l := cs)
  have hsplit' := List.rdropWhile_append_rtakeWhile (p := p) (l := cs.dropWhile p)
  constructor
  · use cs.takeWhile p, (cs.dropWhile p).rtakeWhile p
    constructor
    · simp
    · constructor
      · rw [List.all_eq_true]
        intro c hc
        apply List.mem_rtakeWhile_imp hc
      · rw [trimMatches, List.append_assoc, hsplit', hsplit]
  · constructor
    · -- the head, if there is one, is the head of `cs.dropWhile p`
      intro c hc
      have hstart : trimMatches p cs <+: cs.dropWhile p := List.rdropWhile_prefix p _
      obtain ⟨post, hpost⟩ := hstart
      apply head?_dropWhile_eq_false cs c
      rw [← hpost, List.head?_append, Option.mem_def.mp hc]
      rfl
    · intro c hc
      have := head?_dropWhile_eq_false (p := p) (cs.dropWhile p).reverse c
      rw [trimMatches, List.rdropWhile, List.getLast?_reverse] at hc
      apply this hc

/-- What is left of a text is what stands, trimmed, between matching ends. -/
theorem trimMatches_eq_iff {p : Char → Bool} {cs ds : List Char} :
  trimMatches p cs = ds
    ↔ (∃ pre post, pre.all p ∧ post.all p ∧ cs = pre ++ ds ++ post) ∧ Trimmed p ds
  := by
  constructor
  · rintro rfl
    apply trimMatches_spec
  · rintro ⟨⟨pre, post, hpre, hpost, rfl⟩, hds⟩
    apply trimMatches_of_trimmed hpre hpost hds

/-! ### Unsigned integers -/

/-- The digits of an integer, after a sign that may be written. -/
def unsigned (cs : List Char) : List Char :=
  match cs with
  | '+' :: ds => ds
  | ds => ds

/-- The unsigned integer of `width` bits that a text denotes in decimal. -/
def parseUInt (width : ℕ) (cs : List Char) : Option ℕ :=
  let ds := unsigned cs
  if ds = [] ∨ ds.all Char.isDigit = false then none
  else if Nat.ofDigitChars 10 ds 0 < 2 ^ width then some (Nat.ofDigitChars 10 ds 0)
  else none

theorem parseUInt_eq_some_iff {width : ℕ} {cs : List Char} {n : ℕ} :
  parseUInt width cs = some n
    ↔ ∃ ds, (cs = ds ∨ cs = '+' :: ds) ∧ ds ≠ [] ∧ ds.all Char.isDigit ∧
        n = Nat.ofDigitChars 10 ds 0 ∧ n < 2 ^ width
  := by
  have hunsigned : ∀ ds, ds.all Char.isDigit → (cs = ds ∨ cs = '+' :: ds) → unsigned cs = ds := by
    intro ds hds hcs
    unfold unsigned
    split
    · rcases hcs with rfl | h
      · simp at hds
      · apply (List.cons.inj h).2
    · rcases hcs with h | h
      · apply h
      · simp_all
  have hcases : cs = unsigned cs ∨ cs = '+' :: unsigned cs := by
    unfold unsigned
    split <;> simp
  constructor
  · intro h
    use unsigned cs, hcases
    simp only [parseUInt] at h
    split_ifs at h with hds hn
    simp only [not_or, Bool.not_eq_false] at hds
    obtain rfl := Option.some.inj h
    use hds.1, hds.2
  · rintro ⟨ds, hcs, hne, hall, rfl, hn⟩
    simp only [parseUInt, hunsigned ds hall hcs]
    rw [if_neg (by simp [hne, hall]), if_pos hn]

end Rust
