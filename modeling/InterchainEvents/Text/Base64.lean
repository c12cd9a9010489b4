import InterchainEvents.Text.Utf8
import Mathlib.Tactic.IntervalCases

/-!
# Base64

The standard base64 encoding, and two readings of it. `decode` is a strict one: the
padding may be left out, but the bits that complete the last character must be zero.
`forgivingDecode` is the one of the Infra Standard: it drops white space and ignores those
bits. Both undo `encode` (`decode_encode`, `forgivingDecode_encode`).

A text that is not empty always decodes to fewer octets than it has characters
(`length_lt_of_decode`).
-/

namespace Base64

/-! ### The alphabet -/

/-- The character of a sextet. -/
def digit (n : ℕ) : Char :=
  if n < 26 then Char.ofNat (0x41 + n)
  else if n < 52 then Char.ofNat (0x61 + (n - 26))
  else if n < 62 then Char.ofNat (0x30 + (n - 52))
  else if n = 62 then '+'
  else '/'

/-- The sextet of a character. -/
def value (c : Char) : Option ℕ :=
  if 0x41 ≤ c.toNat ∧ c.toNat ≤ 0x5A then some (c.toNat - 0x41)
  else if 0x61 ≤ c.toNat ∧ c.toNat ≤ 0x7A then some (c.toNat - 0x61 + 26)
  else if 0x30 ≤ c.toNat ∧ c.toNat ≤ 0x39 then some (c.toNat - 0x30 + 52)
  else if c = '+' then some 62
  else if c = '/' then some 63
  else none

theorem value_digit : ∀ n < 64, value (digit n) = some n := by decide

theorem digit_ne_pad : ∀ n < 64, digit n ≠ '=' := by decide

/-- The white space the forgiving reading drops. -/
def isSpace (c : Char) : Bool :=
  c = '\t' || c = '\n' || c = '\x0C' || c = '\r' || c = ' '

theorem isSpace_digit : ∀ n < 64, isSpace (digit n) = false := by decide

/-! ### Sextets -/

/-- The sextets of a sequence of octets, the last one completed with zero bits. -/
def sextets : List UInt8 → List ℕ
  | [] => []
  | [a] => [a.toNat / 4, a.toNat % 4 * 16]
  | [a, b] => [a.toNat / 4, a.toNat % 4 * 16 + b.toNat / 16, b.toNat % 16 * 4]
  | a :: b :: c :: rest =>
      a.toNat / 4 :: (a.toNat % 4 * 16 + b.toNat / 16) :: (b.toNat % 16 * 4 + c.toNat / 64)
        :: c.toNat % 64 :: sextets rest

/-- The octets of a sequence of sextets. When `strict`, the bits left over must be zero. -/
def octets (strict : Bool) : List ℕ → Option (List UInt8)
  | [] => some []
  | [_] => none
  | [x, y] =>
      if strict ∧ y % 16 ≠ 0 then none else some [UInt8.ofNat (x * 4 + y / 16)]
  | [x, y, z] =>
      if strict ∧ z % 4 ≠ 0 then none
      else some [UInt8.ofNat (x * 4 + y / 16), UInt8.ofNat (y % 16 * 16 + z / 4)]
  | x :: y :: z :: w :: rest =>
      (octets strict rest).map fun bs =>
        UInt8.ofNat (x * 4 + y / 16) :: UInt8.ofNat (y % 16 * 16 + z / 4)
          :: UInt8.ofNat (z % 4 * 64 + w) :: bs

theorem sextets_lt (bs : List UInt8) :
  ∀ n ∈ sextets bs, n < 64
  := by
  induction bs using sextets.induct with
  | case1 => simp [sextets]
  | case2 a =>
      have ha := a.toNat_lt
      simp only [sextets, List.forall_mem_cons]
      and_intros
      · omega
      · omega
      · simp
  | case3 a b =>
      have ha := a.toNat_lt
      have hb := b.toNat_lt
      simp only [sextets, List.forall_mem_cons]
      and_intros
      · omega
      · omega
      · omega
      · simp
  | case4 a b c rest ih =>
      have ha := a.toNat_lt
      have hb := b.toNat_lt
      have hc := c.toNat_lt
      simp only [sextets, List.forall_mem_cons]
      and_intros
      · omega
      · omega
      · omega
      · omega
      · apply ih

theorem octets_sextets (strict : Bool) (bs : List UInt8) :
  octets strict (sextets bs) = some bs
  := by
  induction bs using sextets.induct with
  | case1 => rfl
  | case2 a =>
      have ha := a.toNat_lt
      rw [sextets, octets, if_neg (by omega), (UInt8.ofNat_eq_iff_mod_eq_toNat _ a).mpr (by omega)]
  | case3 a b =>
      have ha := a.toNat_lt
      have hb := b.toNat_lt
      rw [sextets, octets, if_neg (by omega), (UInt8.ofNat_eq_iff_mod_eq_toNat _ a).mpr (by omega),
        (UInt8.ofNat_eq_iff_mod_eq_toNat _ b).mpr (by omega)]
  | case4 a b c rest ih =>
      have ha := a.toNat_lt
      have hb := b.toNat_lt
      have hc := c.toNat_lt
      rw [sextets, octets, ih, (UInt8.ofNat_eq_iff_mod_eq_toNat _ a).mpr (by omega),
        (UInt8.ofNat_eq_iff_mod_eq_toNat _ b).mpr (by omega),
        (UInt8.ofNat_eq_iff_mod_eq_toNat _ c).mpr (by omega)]
      rfl

theorem length_sextets (bs : List UInt8) :
  (sextets bs).length = (4 * bs.length + 2) / 3
  := by
  induction bs using sextets.induct with
  | case1 => rfl
  | case2 a => simp [sextets]
  | case3 a b => simp [sextets]
  | case4 a b c rest ih =>
      simp only [sextets, List.length_cons, ih]
      omega

/-- Octets take at most three quarters of the room their sextets take. -/
theorem length_octets {strict : Bool} :
  ∀ {ns : List ℕ} {bs : List UInt8}, octets strict ns = some bs → 4 * bs.length ≤ 3 * ns.length
  | [], _, rfl => by simp
  | [x, y], bs, h => by
      obtain ⟨-, h⟩ := Option.ite_none_left_eq_some.mp h
      obtain rfl := Option.some.inj h
      simp
  | [x, y, z], bs, h => by
      obtain ⟨-, h⟩ := Option.ite_none_left_eq_some.mp h
      obtain rfl := Option.some.inj h
      simp
  | x :: y :: z :: w :: rest, bs, h => by
      obtain ⟨bs', hbs', rfl⟩ := Option.map_eq_some_iff.mp h
      have ih := length_octets hbs'
      simp only [List.length_cons]
      omega

/-! ### Texts -/

/-- The base64 text of a sequence of octets. -/
def encode (bs : List UInt8) : List Char :=
  (sextets bs).map digit ++ List.replicate ((3 - bs.length % 3) % 3) '='

/-- The octets of a base64 text, the padding being optional. -/
def decode (cs : List Char) : Option (List UInt8) :=
  let data := cs.takeWhile (· ≠ '=')
  let pad := cs.dropWhile (· ≠ '=')
  if pad.all (· = '=') ∧ pad.length ≤ (4 - data.length % 4) % 4 then
    (data.map value).allSome.bind (octets true)
  else none

/-- A text without the one or two padding characters it ends with. -/
def stripPadding (cs : List Char) : List Char :=
  match cs.reverse with
  | '=' :: '=' :: r => r.reverse
  | '=' :: r => r.reverse
  | _ => cs

/-- The octets of a text that may hold white space, the padding being optional and the bits
left over being ignored. -/
def forgivingDecode (cs : List Char) : Option (List UInt8) :=
  let cs := cs.filter (fun c => !isSpace c)
  let data := if cs.length % 4 = 0 then stripPadding cs else cs
  (data.map value).allSome.bind (octets false)

theorem allSome_value_digit {ns : List ℕ} (h : ∀ n ∈ ns, n < 64) :
  ((ns.map digit).map value).allSome = some ns
  := by
  rw [Utf8.allSome_eq_some_iff, List.map_map]
  apply List.map_congr_left
  intro n hn
  apply value_digit n (h n hn)

theorem mem_map_digit {bs : List UInt8} {c : Char} (h : c ∈ (sextets bs).map digit) :
  ∃ n < 64, digit n = c
  := by
  obtain ⟨n, hn, rfl⟩ := List.mem_map.mp h
  use n, sextets_lt bs n hn

theorem takeWhile_encode (bs : List UInt8) :
  (encode bs).takeWhile (· ≠ '=') = (sextets bs).map digit
  := by
  rw [encode, List.takeWhile_append_of_pos]
  · cases (3 - bs.length % 3) % 3 <;> simp [List.replicate_succ]
  · intro c hc
    obtain ⟨n, hn, rfl⟩ := mem_map_digit hc
    simpa using digit_ne_pad n hn

theorem dropWhile_encode (bs : List UInt8) :
  (encode bs).dropWhile (· ≠ '=') = List.replicate ((3 - bs.length % 3) % 3) '='
  := by
  rw [encode, List.dropWhile_append_of_pos]
  · cases (3 - bs.length % 3) % 3 <;> simp [List.replicate_succ]
  · intro c hc
    obtain ⟨n, hn, rfl⟩ := mem_map_digit hc
    simpa using digit_ne_pad n hn

/-- The strict reading undoes the encoding. -/
@[simp]
theorem decode_encode (bs : List UInt8) :
  decode (encode bs) = some bs
  := by
  simp only [decode, takeWhile_encode, dropWhile_encode]
  rw [if_pos, allSome_value_digit (sextets_lt bs)]
  · apply octets_sextets
  · constructor
    · simp
    · simp only [List.length_replicate, List.length_map, length_sextets]
      have hmod := Nat.div_add_mod bs.length 3
      have hlt := Nat.mod_lt bs.length (show 3 > 0 by omega)
      interval_cases hr : bs.length % 3 <;> omega

theorem stripPadding_append {xs : List Char} (hxs : ∀ c ∈ xs, c ≠ '=') {k : ℕ} (hk : k ≤ 2) :
  stripPadding (xs ++ List.replicate k '=') = xs
  := by
  have hrev : ∀ c r, xs.reverse = c :: r → c ≠ '=' := by
    intro c r h
    apply hxs
    rw [← List.mem_reverse, h]
    apply List.mem_cons_self
  have hback := List.reverse_reverse xs
  simp only [stripPadding, List.reverse_append, List.reverse_replicate]
  cases hr : xs.reverse with
  | nil =>
      rw [hr] at hback
      interval_cases k <;> simp [List.replicate_succ, ← hback]
  | cons c r =>
      have hc := hrev c r hr
      rw [hr] at hback
      interval_cases k
      · simp only [List.replicate_zero, List.nil_append]
        split <;> simp_all
      · simp only [List.replicate_succ, List.replicate_zero, List.nil_append, List.cons_append]
        rw [← hback]
        split <;> simp_all
      · apply hback

/-- The forgiving reading undoes the encoding. -/
@[simp]
theorem forgivingDecode_encode (bs : List UInt8) :
  forgivingDecode (encode bs) = some bs
  := by
  have hpad : ∀ c ∈ (sextets bs).map digit, c ≠ '=' := by
    intro c hc
    obtain ⟨n, hn, rfl⟩ := mem_map_digit hc
    apply digit_ne_pad n hn
  have hfilter : (encode bs).filter (fun c => !isSpace c) = encode bs := by
    apply List.filter_eq_self.mpr
    intro c hc
    rcases List.mem_append.mp hc with hc | hc
    · obtain ⟨n, hn, rfl⟩ := mem_map_digit hc
      simp [isSpace_digit n hn]
    · rw [List.eq_of_mem_replicate hc]
      decide
  have hlen : (encode bs).length % 4 = 0 := by
    simp only [encode, List.length_append, List.length_map, length_sextets, List.length_replicate]
    have hmod := Nat.div_add_mod bs.length 3
    have hlt := Nat.mod_lt bs.length (show 3 > 0 by omega)
    interval_cases hr : bs.length % 3 <;> omega
  simp only [forgivingDecode, hfilter, hlen, if_true]
  rw [encode, stripPadding_append hpad (by omega), allSome_value_digit (sextets_lt bs)]
  apply octets_sextets

/-- A text that is not empty decodes to fewer octets than it has characters. -/
theorem length_lt_of_decode {cs : List Char} {bs : List UInt8} (h : decode cs = some bs)
    (hcs : cs ≠ []) :
  bs.length < cs.length
  := by
  obtain ⟨⟨-, hpad⟩, h⟩ := Option.ite_none_right_eq_some.mp h
  obtain ⟨ns, hns, hbs⟩ := Option.bind_eq_some_iff.mp h
  have hdata := congrArg List.length (Utf8.allSome_eq_some_iff.mp hns)
  have hlen := length_octets hbs
  have hsplit := congrArg List.length (List.takeWhile_append_dropWhile (p := (· ≠ '=')) (l := cs))
  simp only [List.length_append, List.length_map] at hdata hsplit hpad
  have hpos := List.length_pos_of_ne_nil hcs
  omega

end Base64
