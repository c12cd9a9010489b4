import InterchainEvents.Js.Text
import InterchainEvents.Number.Binary64
import InterchainEvents.Text.Decimal

/-!
# Numbers and their texts in JavaScript

`literal` is the number a numeric literal denotes, `parseFloat` and `parseInt` the number at
the beginning of a text, and `numberText` the shortest decimal that denotes a number.
-/

namespace Js

open Binary64 (one nearest)
open Decimal (toNat_of_isDigit)

/-! ### Literals -/

/-- The number nearest `m` times the power `e` of ten, with a sign. -/
def decimal (neg : Bool) (m : ℕ) (e : ℤ) : Binary64 :=
  Binary64.round neg (m * 10 ^ e.toNat) (10 ^ (-e).toNat)

/-- The number a literal denotes. -/
def literal (l : Json.NumLit) : Binary64 :=
  let frac := l.frac.getD []
  let e : ℤ := match l.exp with
    | none => 0
    | some (neg, ds) => if neg then -(Json.value10 ds : ℤ) else Json.value10 ds
  decimal l.neg (Json.value10 (l.int ++ frac)) (e - frac.length)

/-! ### `parseFloat` -/

/-- A text after its sign, and whether that sign is a minus. -/
def sign : List Char → Bool × List Char
  | '-' :: cs => (true, cs)
  | '+' :: cs => (false, cs)
  | cs => (false, cs)

/-- The digits a text begins with, and the text after them. -/
def spanDigits (cs : List Char) : List Char × List Char :=
  (cs.takeWhile Json.isDigit, cs.dropWhile Json.isDigit)

/-- The digits after a point, if the text begins with one, and the text after them. -/
def fraction : List Char → List Char × List Char
  | '.' :: cs => spanDigits cs
  | cs => ([], cs)

/-- The number that decimal digits denote. -/
def digitsValue (ds : List Char) : ℕ :=
  Json.value10 (ds.map Json.digit)

/-- The exponent a text begins with, zero if there is none. -/
def exponent : List Char → ℤ
  | [] => 0
  | c :: cs =>
      if c = 'e' ∨ c = 'E' then
        let (neg, cs) := sign cs
        let n : ℤ := digitsValue (spanDigits cs).1
        if neg then -n else n
      else 0

/-- The number at the beginning of a text, after its sign. -/
def unsignedFloat (neg : Bool) (cs : List Char) : Binary64 :=
  if "Infinity".toList.isPrefixOf cs then .infinite neg
  else
    let (ds, cs) := spanDigits cs
    let (fs, cs) := fraction cs
    if ds = [] ∧ fs = [] then .nan
    else decimal neg (digitsValue (ds ++ fs)) (exponent cs - fs.length)

/-- `parseFloat(text)` -/
def parseFloat (cs : List Char) : Binary64 :=
  let (neg, cs) := sign (cs.dropWhile isWhiteSpace)
  unsignedFloat neg cs

/-! ### What `parseFloat` reads -/

/-- A character that a numeral does not go on with. -/
def Stops (c : Char) : Prop :=
  Json.isDigit c = false ∧ c ≠ '.' ∧ c ≠ 'e' ∧ c ≠ 'E'

theorem digitsValue_eq (ds : List Char) :
  digitsValue ds = Nat.ofDigitChars 10 ds 0
  := by
  rw [digitsValue, Json.value10, List.foldl_map, Nat.ofDigitChars_eq_foldl]
  rfl

theorem decimal_zero (neg : Bool) (m : ℕ) :
  decimal neg m 0 = Binary64.round neg m 1
  := by
  simp [decimal]

theorem sign_of_head {cs : List Char} (hminus : cs.head? ≠ some '-') (hplus : cs.head? ≠ some '+') :
  sign cs = (false, cs)
  := by
  unfold sign
  split
  · simp at hminus
  · simp at hplus
  · rfl

/-- A numeral does not go on with a character beyond ASCII. -/
theorem stops_of_ge {c : Char} (h : 0x80 ≤ c.toNat) :
  Stops c
  := by
  refine ⟨?_, ?_, ?_, ?_⟩
  · apply Bool.eq_false_iff.mpr
    intro hdigit
    have := toNat_of_isDigit hdigit
    omega
  all_goals
    rintro rfl
    contradiction

theorem spanDigits_of_stops {ds rest : List Char} (hds : ds.all Json.isDigit)
    (hrest : ∀ c ∈ rest.head?, Stops c) :
  spanDigits (ds ++ rest) = (ds, rest)
  := by
  have hall := List.all_eq_true.mp hds
  rw [spanDigits, List.takeWhile_append_of_pos hall, List.dropWhile_append_of_pos hall]
  cases rest with
  | nil => simp
  | cons c rest =>
      have := (hrest c rfl).1
      simp [this]

theorem fraction_of_stops {rest : List Char} (hrest : ∀ c ∈ rest.head?, Stops c) :
  fraction rest = ([], rest)
  := by
  unfold fraction
  split
  · have := (hrest '.' rfl).2.1
    contradiction
  · rfl

theorem exponent_of_stops {rest : List Char} (hrest : ∀ c ∈ rest.head?, Stops c) :
  exponent rest = 0
  := by
  cases rest with
  | nil => rfl
  | cons c rest =>
      obtain ⟨-, -, he, hE⟩ := hrest c rfl
      rw [exponent, if_neg (by simp [he, hE])]

/-- Digits are read up to where the numeral stops. -/
theorem unsignedFloat_digits {ds rest : List Char} (hne : ds ≠ []) (hds : ds.all Json.isDigit)
    (hrest : ∀ c ∈ rest.head?, Stops c) :
  unsignedFloat false (ds ++ rest) = Binary64.round false (digitsValue ds) 1
  := by
  have hinfinity : "Infinity".toList.isPrefixOf (ds ++ rest) = false := by
    obtain ⟨d, ds, rfl⟩ := List.exists_cons_of_ne_nil hne
    have hd : Json.isDigit d := List.all_eq_true.mp hds d List.mem_cons_self
    have hI : 'I' ≠ d := by
      rintro rfl
      simp [Json.isDigit] at hd
    simp [List.isPrefixOf, hI]
  rw [unsignedFloat, hinfinity, if_neg Bool.false_ne_true, spanDigits_of_stops hds hrest]
  simp only [fraction_of_stops hrest, exponent_of_stops hrest]
  rw [if_neg (by simp [hne])]
  simp [decimal_zero]

/-- A numeral after white space is read up to where it stops. -/
theorem parseFloat_digits {before plus ds rest : List Char} (hbefore : before.all isWhiteSpace)
    (hplus : plus = [] ∨ plus = ['+']) (hne : ds ≠ []) (hds : ds.all Json.isDigit)
    (hrest : ∀ c ∈ rest.head?, Stops c) :
  parseFloat (before ++ (plus ++ ds ++ rest)) = Binary64.round false (digitsValue ds) 1
  := by
  obtain ⟨d, ds', rfl⟩ := List.exists_cons_of_ne_nil hne
  have hd := toNat_of_isDigit (List.all_eq_true.mp hds d List.mem_cons_self)
  have hspace : isWhiteSpace d = false := by
    simp only [isWhiteSpace, decide_eq_false_iff_not]
    omega
  have hdrop : (before ++ (plus ++ (d :: ds') ++ rest)).dropWhile isWhiteSpace
      = plus ++ (d :: ds') ++ rest := by
    rw [List.dropWhile_append_of_pos (by simpa using hbefore)]
    rcases hplus with rfl | rfl
    · simp [hspace]
    · simp [isWhiteSpace]
  have hsign : sign (plus ++ (d :: ds') ++ rest) = (false, d :: ds' ++ rest) := by
    rcases hplus with rfl | rfl
    · apply sign_of_head
      · rintro ⟨⟩
        simp at hd
      · rintro ⟨⟩
        simp at hd
    · rfl
  rw [parseFloat, hdrop, hsign]
  apply unsignedFloat_digits hne hds hrest

/-- A text that begins, after white space, with a character beyond ASCII is not a number. -/
theorem parseFloat_beyond {before : List Char} {c : Char} (hbefore : before.all isWhiteSpace)
    (hc : 0x80 ≤ c.toNat) (hspace : isWhiteSpace c = false) (rest : List Char) :
  parseFloat (before ++ c :: rest) = .nan
  := by
  have hne {d : Char} (hd : d.toNat < 0x80) : c ≠ d := by
    rintro rfl
    omega
  have hdigit : Json.isDigit c = false := by
    apply Bool.eq_false_iff.mpr
    intro h
    have := toNat_of_isDigit h
    omega
  have hsign : sign (c :: rest) = (false, c :: rest) := by
    apply sign_of_head
    · simpa using hne (d := '-') (by decide)
    · simpa using hne (d := '+') (by decide)
  have hfraction : fraction (c :: rest) = ([], c :: rest) := by
    unfold fraction
    split
    · rename_i heq
      cases heq
      simp at hc
    · rfl
  have hinfinity : "Infinity".toList.isPrefixOf (c :: rest) = false := by
    simp [List.isPrefixOf, (hne (d := 'I') (by decide)).symm]
  rw [parseFloat, List.dropWhile_append_of_pos (by simpa using hbefore),
    List.dropWhile_cons_of_neg (by simp [hspace]), hsign]
  have hspan : spanDigits (c :: rest) = ([], c :: rest) := by
    rw [spanDigits, List.takeWhile_cons_of_neg (by simp [hdigit]),
      List.dropWhile_cons_of_neg (by simp [hdigit])]
  simp only [unsignedFloat, hinfinity, hspan, hfraction]
  rw [if_neg Bool.false_ne_true, if_pos ⟨trivial, trivial⟩]

/-! ### `parseInt` -/

/-- The value of a character as a digit. -/
def digitValue (c : Char) : Option ℕ :=
  if '0' ≤ c ∧ c ≤ '9' then some (c.toNat - '0'.toNat)
  else if 'a' ≤ c ∧ c ≤ 'z' then some (c.toNat - 'a'.toNat + 10)
  else if 'A' ≤ c ∧ c ≤ 'Z' then some (c.toNat - 'A'.toNat + 10)
  else none

/-- Whether a character is a digit in a radix. -/
def isDigitIn (radix : ℕ) (c : Char) : Bool :=
  match digitValue c with
  | some n => decide (n < radix)
  | none => false

/-- A text after the prefix of hexadecimal numerals, if it has that. -/
def hexPrefixed : List Char → Option (List Char)
  | '0' :: 'x' :: cs => some cs
  | '0' :: 'X' :: cs => some cs
  | _ => none

/-- The integer at the beginning of a text in a radix. -/
def integerIn (neg : Bool) (radix : ℕ) (cs : List Char) : Binary64 :=
  let ds := cs.takeWhile (isDigitIn radix)
  if ds = [] then .nan
  else Binary64.round neg (ds.foldl (fun n c => radix * n + (digitValue c).getD 0) 0) 1

/-- `parseInt(text, radix)`, the radix being 10 or 16, or to be told from the text. -/
def parseInt (cs : List Char) (radix : Option ℕ) : Binary64 :=
  let (neg, cs) := sign (cs.dropWhile isWhiteSpace)
  match radix with
  | some 16 => integerIn neg 16 ((hexPrefixed cs).getD cs)
  | some radix => integerIn neg radix cs
  | none =>
      match hexPrefixed cs with
      | some cs => integerIn neg 16 cs
      | none => integerIn neg 10 cs

/-- The integer that a number is cut to, if it is finite. -/
def integer : Binary64 → Option ℤ
  | .finite neg m => some (Binary64.signed neg (m / one))
  | _ => none

/-- A number as an element of a `Uint8Array`. -/
def toUint8 : Binary64 → UInt8
  | .finite neg m =>
      let n := m / one
      if neg then 0 - UInt8.ofNat n else UInt8.ofNat n
  | _ => 0

theorem digitValue_of_hex {c : Char} {n : ℕ} (h : Hex.value c = some n) :
  digitValue c = some n ∧ n < 16
  := by
  have hcases := Hex.value_cases h
  have hval : c.val.toNat = c.toNat := rfl
  simp only [digitValue, Char.le_def, UInt32.le_iff_toNat_le, hval]
  rcases hcases with ⟨hl, hu, rfl⟩ | ⟨hl, hu, rfl⟩ | ⟨hl, hu, rfl⟩
  · rw [if_pos ⟨hl, hu⟩]
    use rfl
    omega
  · rw [if_neg fun hc => absurd (hl.trans hc.2) (by decide), if_pos ⟨hl, hu.trans (by decide)⟩]
    use rfl
    omega
  · rw [if_neg fun hc => absurd (hl.trans hc.2) (by decide),
      if_neg fun hc => absurd (hc.1.trans hu) (by decide), if_pos ⟨hl, hu.trans (by decide)⟩]
    use rfl
    omega

/-- An integer that is held exactly is the one that was meant. -/
theorem integer_round {n : ℕ} (h : n ≤ 2 ^ 53) (neg : Bool) :
  integer (Binary64.round neg n 1) = some (Binary64.signed neg n)
  := by
  rw [Binary64.round_of_le (by decide) h, Binary64.roundScaled_of_le h]
  simp only [integer]
  rw [Nat.mul_div_cancel n Binary64.one_pos]

theorem toUint8_round {n : ℕ} (h : n ≤ 2 ^ 53) :
  toUint8 (Binary64.round false n 1) = UInt8.ofNat n
  := by
  rw [Binary64.round_of_le (by decide) h, Binary64.roundScaled_of_le h]
  simp only [toUint8, Bool.false_eq_true, if_false]
  rw [Nat.mul_div_cancel n Binary64.one_pos]

/-- A byte is read from its two digits. -/
theorem toUint8_parseInt {c d : Char} {m n : ℕ} (hc : Hex.value c = some m)
    (hd : Hex.value d = some n) :
  toUint8 (parseInt [c, d] (some 16)) = UInt8.ofNat (16 * m + n)
  := by
  obtain ⟨hc', hm⟩ := digitValue_of_hex hc
  obtain ⟨hd', hn⟩ := digitValue_of_hex hd
  have hcases := Hex.value_cases hc
  have hcases' := Hex.value_cases hd
  have hspace : isWhiteSpace c = false := by
    simp only [isWhiteSpace, decide_eq_false_iff_not]
    omega
  have hsign : sign [c, d] = (false, [c, d]) := by
    apply sign_of_head
    all_goals
      rintro ⟨⟩
      contradiction
  have hstart : hexPrefixed [c, d] = none := by
    unfold hexPrefixed
    split
    all_goals first
      | rfl
      | rename_i heq
        cases heq
        contradiction
  have hdigits : [c, d].takeWhile (isDigitIn 16) = [c, d] := by
    simp [isDigitIn, hc', hd', hm, hn]
  rw [parseInt, List.dropWhile_cons_of_neg (by simp [hspace]), hsign]
  simp only [hstart, Option.getD_none, integerIn, hdigits]
  rw [if_neg (by simp)]
  simp only [List.foldl_cons, List.foldl_nil, hc', hd', Option.getD_some]
  rw [Nat.mul_zero, Nat.zero_add, toUint8_round (by omega)]

theorem digitValue_of_isDigit {c : Char} (h : Json.isDigit c) :
  digitValue c = some (c.toNat - '0'.toNat)
  := by
  rw [Json.isDigit, decide_eq_true_eq] at h
  rw [digitValue, if_pos h]

theorem isDigitIn_ten (c : Char) :
  isDigitIn 10 c = Json.isDigit c
  := by
  by_cases hc : Json.isDigit c
  · have := toNat_of_isDigit hc
    rw [isDigitIn, digitValue_of_isDigit hc, hc, decide_eq_true_eq, show '0'.toNat = 48 from rfl]
    omega
  · have hnot : ¬ ('0' ≤ c ∧ c ≤ '9') := by simpa [Json.isDigit] using hc
    rw [Bool.not_eq_true] at hc
    rw [hc, isDigitIn, digitValue, if_neg hnot]
    split_ifs <;> simp

/-- The digits at the beginning of a text are read as their value. -/
theorem integerIn_of_takeWhile {cs ds : List Char} (htake : cs.takeWhile Json.isDigit = ds)
    (hne : ds ≠ []) (neg : Bool) :
  integerIn neg 10 cs = Binary64.round neg (Nat.ofDigitChars 10 ds 0) 1
  := by
  have hpred : isDigitIn 10 = Json.isDigit := funext isDigitIn_ten
  have hfold : ds.foldl (fun n c => 10 * n + (digitValue c).getD 0) 0
      = Nat.ofDigitChars 10 ds 0 := by
    rw [Nat.ofDigitChars_eq_foldl]
    apply List.foldl_ext
    intro n c hc
    rw [← htake] at hc
    rw [digitValue_of_isDigit (List.mem_takeWhile_imp hc), Option.getD_some]
  simp only [integerIn, hpred, htake]
  rw [if_neg hne, hfold]

/-- A digit is neither white space nor a sign. -/
theorem sign_dropWhile_of_isDigit {d : Char} (hd : Json.isDigit d) (cs : List Char) :
  sign ((d :: cs).dropWhile isWhiteSpace) = (false, d :: cs)
  := by
  have hdigit := toNat_of_isDigit hd
  have hspace : isWhiteSpace d = false := by
    simp only [isWhiteSpace, decide_eq_false_iff_not]
    omega
  rw [List.dropWhile_cons_of_neg (by simp [hspace])]
  apply sign_of_head
  all_goals
    rintro ⟨⟩
    simp at hdigit

/-- A numeral in decimal is read as the number that it denotes. -/
theorem parseInt_toDigits (n : ℕ) :
  parseInt (Nat.toDigits 10 n) (some 10) = Binary64.round false n 1
  := by
  have htake : (Nat.toDigits 10 n).takeWhile Json.isDigit = Nat.toDigits 10 n := by
    apply List.takeWhile_eq_self_iff.mpr
    intro c hc
    apply Decimal.isDigit_of_mem_toDigits hc
  obtain ⟨d, ds, heq⟩ := List.exists_cons_of_ne_nil (Nat.toDigits_ne_nil (n := n) (b := 10))
  have hd : Json.isDigit d := Decimal.isDigit_of_mem_toDigits (n := n) (by simp [heq])
  have hread : parseInt (Nat.toDigits 10 n) (some 10)
      = integerIn false 10 (Nat.toDigits 10 n) := by
    rw [heq, parseInt, sign_dropWhile_of_isDigit hd]
    rfl
  rw [hread, integerIn_of_takeWhile htake Nat.toDigits_ne_nil, Nat.ofDigitChars_ten_toDigits]

/-- The integer in the decimal of a number that is held exactly. -/
theorem integer_parseInt_toString {n : ℕ} (h : n < 2 ^ 53) :
  integer (parseInt (toString n).toList (some 10)) = some (n : ℤ)
  := by
  have htext : (toString n).toList = Nat.toDigits 10 n := Nat.toList_repr
  rw [htext, parseInt_toDigits, integer_round h.le]
  rfl

/-! ### Texts of numbers -/

/-- The power of ten just above a number that is not zero. -/
def decimalExponent (m : ℕ) : ℤ :=
  (Nat.toDigits 10 (m * 10 ^ 324 / one)).length - 324

/-- The integers around the quotient of a number by a power of ten, the nearest one first. -/
def candidates (m : ℕ) (e : ℤ) : List ℕ :=
  let a := m * 10 ^ (-e).toNat
  let d := one * 10 ^ e.toNat
  if nearest a d = a / d then [a / d, a / d + 1] else [a / d + 1, a / d]

/-- The candidate with the power of ten `e` that denotes a number, if there is one. -/
def shortestAt (m : ℕ) (e : ℤ) : Option (ℕ × ℤ) :=
  ((candidates m e).find? fun s => decimal false s e = .finite false m).map fun s => (s, e)

/-- The fewest decimal digits that denote a number, and the power of ten they count. Of several
with as many digits they are those nearest to the number. -/
def shortest (m : ℕ) : ℕ × ℤ :=
  ((List.range 17).findSome? fun k : ℕ => shortestAt m (decimalExponent m - (k + 1))).getD (0, 0)

/-- The decimal notation of the digits `ds`, the point standing after the first `n` of them. -/
def layout (ds : List Char) (n : ℤ) : List Char :=
  if ds.length ≤ n ∧ n ≤ 21 then ds ++ List.replicate (n - ds.length).toNat '0'
  else if 0 < n ∧ n ≤ 21 then ds.take n.toNat ++ '.' :: ds.drop n.toNat
  else if -6 < n ∧ n ≤ 0 then '0' :: '.' :: List.replicate (-n).toNat '0' ++ ds
  else
    let e := (if 0 < n then '+' else '-') :: Nat.toDigits 10 (n - 1).natAbs
    match ds with
    | [] => []
    | [d] => d :: 'e' :: e
    | d :: ds => d :: '.' :: ds ++ 'e' :: e

/-- `String(number)` -/
def numberText : Binary64 → List Char
  | .nan => "NaN".toList
  | .infinite neg => (if neg then ['-'] else []) ++ "Infinity".toList
  | .finite _ 0 => ['0']
  | .finite neg m =>
      let (s, e) := shortest m
      let ds := Nat.toDigits 10 s
      (if neg then ['-'] else []) ++ layout (ds.rdropWhile (· = '0')) (ds.length + e)

end Js
