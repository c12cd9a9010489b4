import InterchainEvents.Hub.Steps

/-!
# What conditions mean

`Satisfies` says when a value satisfies a condition, in terms of what the value reads as: a
text, a number, a JSON value with a member at the end of a path. The contract's check accepts
exactly the values that do (`checkValue_ok_iff`).
-/

namespace Hub

open Shared

/-! ### Readings -/

/-- The bytes are a text in UTF-8. -/
def ReadsText (bytes : Binary) (s : List Char) : Prop :=
  bytes = Utf8.encode s

/-- The bytes are the decimal of a number below `2 ^ 128`: digits after at most one plus sign,
within quotes, within white space. -/
def ReadsNumber (bytes : Binary) (n : ℕ) : Prop :=
  ∃ before opening sign digits closing after,
    ReadsText bytes (before ++ (opening ++ (sign ++ digits) ++ closing) ++ after) ∧
      before.all Rust.isWhitespace ∧ after.all Rust.isWhitespace ∧
      opening.all (· = '"') ∧ closing.all (· = '"') ∧ (sign = [] ∨ sign = ['+']) ∧
      digits ≠ [] ∧ digits.all Char.isDigit ∧ n = Nat.ofDigitChars 10 digits 0 ∧ n < 2 ^ 128

/-- What the first bytes read as is above what the second do. -/
def Exceeds : ValueEncoding → Binary → Binary → Prop
  | .bytes, a, b => b < a
  | .string, a, b => ∃ s t, ReadsText a s ∧ ReadsText b t ∧ t < s
  | .numeric, a, b => ∃ m n, ReadsNumber a m ∧ ReadsNumber b n ∧ n < m

/-- The segments of a path, which a dot separates. -/
def Segments (path : String) (segments : List (List Char)) : Prop :=
  segments ≠ [] ∧ (∀ segment ∈ segments, '.' ∉ segment) ∧
    path.toList = ['.'].intercalate segments

/-- One JSON value is reached from another by going from member to member. -/
inductive Reaches : List (List Char) → SerdeJson.Value → SerdeJson.Value → Prop
  | here {v} : Reaches [] v v
  | member {name segments members v w} : (name, v) ∈ members → Reaches segments v w →
      Reaches (name :: segments) (.object members) w

/-- A JSON value as a plain text: what a string says, and any other value as it is written. -/
def rendering : SerdeJson.Value → List Char
  | .string s => s
  | v => v.render

/-- The value satisfies the condition. -/
def Satisfies (lib : Libraries) : SubscriptionCondition → Binary → Prop
  | .exists, _ => True
  | .equals expected, value => value = expected
  | .greaterThan threshold encoding, value => Exceeds encoding value threshold
  | .lessThan threshold encoding, value => Exceeds encoding threshold value
  | .jsonPathEquals path expected, value =>
      ∃ json segments reached, SerdeJson.fromSlice lib.float value = some json ∧
        Segments path segments ∧ Reaches segments json reached ∧
        rendering reached = expected.toList

/-! ### Numbers -/

theorem trimmed_of_all {p : Char → Bool} {cs : List Char} (h : ∀ c ∈ cs, p c = false) :
  Rust.Trimmed p cs
  := by
  constructor
  · intro c hc
    apply h c (List.mem_of_mem_head? hc)
  · intro c hc
    apply h c (List.mem_of_mem_getLast? hc)

theorem not_isWhitespace_of_isDigit {c : Char} (h : c.isDigit) :
  Rust.isWhitespace c = false
  := by
  have h' : 48 ≤ c.toNat ∧ c.toNat ≤ 57 := by
    simpa [Char.isDigit, UInt32.le_iff_toNat_le] using h
  simp only [Rust.isWhitespace, decide_eq_false_iff_not]
  omega

/-- A numeral: digits after at most one plus sign. -/
def Numeral (core digits : List Char) : Prop :=
  (core = digits ∨ core = '+' :: digits) ∧ digits.all Char.isDigit

theorem Numeral.mem {core digits : List Char} (h : Numeral core digits) {c : Char} (hc : c ∈ core) :
  c = '+' ∨ c.isDigit
  := by
  have hdigits := List.all_eq_true.mp h.2
  rcases h.1 with rfl | rfl
  · right
    apply hdigits c hc
  · rcases List.mem_cons.mp hc with hc | hc
    · left
      apply hc
    · right
      apply hdigits c hc

/-- A text is trimmed to a numeral when the numeral stands between quotes between white
space. -/
theorem trim_eq_numeral_iff {s core digits : List Char} (h : Numeral core digits) :
  Rust.trimMatches (· = '"') (Rust.trim s) = core
    ↔ ∃ before opening closing after,
        s = before ++ (opening ++ core ++ closing) ++ after ∧
        before.all Rust.isWhitespace ∧ after.all Rust.isWhitespace ∧
        opening.all (· = '"') ∧ closing.all (· = '"')
  := by
  constructor
  · intro htrim
    obtain ⟨⟨opening, closing, hopening, hclosing, hmiddle⟩, -⟩ := Rust.trimMatches_eq_iff.mp htrim
    obtain ⟨⟨before, after, hbefore, hafter, hs⟩, -⟩ :=
      Rust.trimMatches_spec Rust.isWhitespace s
    refine ⟨before, opening, closing, after, ?_, hbefore, hafter, hopening, hclosing⟩
    rw [← hmiddle]
    apply hs
  · rintro ⟨before, opening, closing, after, rfl, hbefore, hafter, hopening, hclosing⟩
    have hquote : Rust.Trimmed (fun c => decide (c = '"')) core := by
      apply trimmed_of_all
      intro c hc
      rcases h.mem hc with rfl | hdigit
      · rfl
      · simp only [decide_eq_false_iff_not]
        rintro rfl
        simp at hdigit
    have hspace : Rust.Trimmed Rust.isWhitespace (opening ++ core ++ closing) := by
      apply trimmed_of_all
      intro c hc
      simp only [List.mem_append] at hc
      rcases hc with (hc | hc) | hc
      · obtain rfl := of_decide_eq_true (List.all_eq_true.mp hopening c hc)
        decide
      · rcases h.mem hc with rfl | hdigit
        · decide
        · apply not_isWhitespace_of_isDigit hdigit
      · obtain rfl := of_decide_eq_true (List.all_eq_true.mp hclosing c hc)
        decide
    rw [Rust.trim, Rust.trimMatches_of_trimmed hbefore hafter hspace,
      Rust.trimMatches_of_trimmed hopening hclosing hquote]

/-- Digits after at most one plus sign, the sign being a part of its own. -/
theorem exists_sign {core digits : List Char} :
  core = digits ∨ core = '+' :: digits
    ↔ ∃ sign, (sign = [] ∨ sign = ['+']) ∧ core = sign ++ digits
  := by
  constructor
  · rintro (rfl | rfl)
    · use []
      simp
    · use ['+']
      simp
  · rintro ⟨sign, rfl | rfl, rfl⟩
    · left
      rfl
    · right
      rfl

theorem parseU128_ok_iff {bytes : Binary} {n : ℕ} :
  parseU128 bytes = .ok n ↔ ReadsNumber bytes n
  := by
  constructor
  · intro h
    unfold parseU128 at h
    cases hdecode : Utf8.decode? bytes with
    | none => simp [hdecode] at h
    | some s =>
        simp only [hdecode] at h
        cases hparse : Rust.parseUInt 128 (Rust.trimMatches (· = '"') (Rust.trim s)) with
        | none => simp [hparse] at h
        | some m =>
            simp only [hparse, Except.ok.injEq] at h
            subst h
            obtain ⟨digits, hcore, hne, hall, hm, hlt⟩ := Rust.parseUInt_eq_some_iff.mp hparse
            obtain ⟨before, opening, closing, after, hs, hbefore, hafter, hopening, hclosing⟩ :=
              (trim_eq_numeral_iff ⟨hcore, hall⟩).mp rfl
            obtain ⟨sign, hsign, hcore⟩ := exists_sign.mp hcore
            refine ⟨before, opening, sign, digits, closing, after, ?_, hbefore, hafter, hopening,
              hclosing, hsign, hne, hall, hm, hlt⟩
            rw [ReadsText, Utf8.decode?_eq_some_iff.mp hdecode, ← hcore, ← hs]
  · rintro ⟨before, opening, sign, digits, closing, after, hbytes, hbefore, hafter, hopening,
      hclosing, hsign, hne, hall, hn, hlt⟩
    have hcore : sign ++ digits = digits ∨ sign ++ digits = '+' :: digits :=
      exists_sign.mpr ⟨sign, hsign, rfl⟩
    have htrim := (trim_eq_numeral_iff ⟨hcore, hall⟩).mpr
      ⟨before, opening, closing, after, rfl, hbefore, hafter, hopening, hclosing⟩
    have hparse := Rust.parseUInt_eq_some_iff.mpr ⟨digits, hcore, hne, hall, hn, hlt⟩
    rw [← htrim] at hparse
    unfold parseU128
    rw [hbytes, Utf8.decode?_encode]
    simp only [hparse]

/-! ### Comparisons -/

theorem compareValues_string_iff {a b : Binary} {o : Ordering} :
  compareValues a b .string = .ok o
    ↔ ∃ s t, ReadsText a s ∧ ReadsText b t ∧ compare (Utf8.encode s) (Utf8.encode t) = o
  := by
  unfold compareValues
  cases ha : Utf8.decode? a with
  | none =>
      have : ¬ ∃ s t, ReadsText a s ∧ ReadsText b t ∧
          compare (Utf8.encode s) (Utf8.encode t) = o := by
        rintro ⟨s, t, hs, -, -⟩
        rw [hs, Utf8.decode?_encode] at ha
        cases ha
      simpa using this
  | some s =>
      obtain rfl := Utf8.decode?_eq_some_iff.mp ha
      cases hb : Utf8.decode? b with
      | none =>
          have : ¬ ∃ s' t, ReadsText (Utf8.encode s) s' ∧ ReadsText b t ∧
              compare (Utf8.encode s') (Utf8.encode t) = o := by
            rintro ⟨s', t, -, ht, -⟩
            rw [ht, Utf8.decode?_encode] at hb
            cases hb
          simpa using this
      | some t =>
          obtain rfl := Utf8.decode?_eq_some_iff.mp hb
          simp only [Except.ok.injEq, ReadsText]
          constructor
          · intro h
            exact ⟨s, t, rfl, rfl, h⟩
          · rintro ⟨s', t', hs, ht, h⟩
            rw [hs, ht]
            apply h

theorem compareValues_numeric_iff {a b : Binary} {o : Ordering} :
  compareValues a b .numeric = .ok o
    ↔ ∃ m n, ReadsNumber a m ∧ ReadsNumber b n ∧ compare m n = o
  := by
  simp only [← parseU128_ok_iff]
  unfold compareValues
  cases parseU128 a with
  | error e => simp [bind, Except.bind]
  | ok m =>
      cases parseU128 b with
      | error e => simp [bind, Except.bind]
      | ok n => simp [bind, Except.bind]

theorem compareValues_gt_iff {a b : Binary} {encoding : ValueEncoding} :
  compareValues a b encoding = .ok .gt ↔ Exceeds encoding a b
  := by
  cases encoding with
  | bytes =>
      simp only [compareValues, Except.ok.injEq, Exceeds]
      apply Rust.compare_eq_gt_iff
  | string =>
      simp only [compareValues_string_iff, Rust.compare_eq_gt_iff, Utf8.encode_lt_encode_iff,
        Exceeds]
  | numeric => simp only [compareValues_numeric_iff, Nat.compare_eq_gt, Exceeds]

theorem compareValues_lt_iff {a b : Binary} {encoding : ValueEncoding} :
  compareValues a b encoding = .ok .lt ↔ Exceeds encoding b a
  := by
  cases encoding with
  | bytes =>
      simp only [compareValues, Except.ok.injEq, Exceeds]
      apply Rust.compare_eq_lt_iff
  | string =>
      simp only [compareValues_string_iff, Rust.compare_eq_lt_iff, Utf8.encode_lt_encode_iff,
        Exceeds]
      constructor
      · rintro ⟨s, t, hs, ht, h⟩
        exact ⟨t, s, ht, hs, h⟩
      · rintro ⟨t, s, ht, hs, h⟩
        exact ⟨s, t, hs, ht, h⟩
  | numeric =>
      simp only [compareValues_numeric_iff, Nat.compare_eq_lt, Exceeds]
      constructor
      · rintro ⟨m, n, hm, hn, h⟩
        exact ⟨n, m, hn, hm, h⟩
      · rintro ⟨n, m, hn, hm, h⟩
        exact ⟨m, n, hm, hn, h⟩

/-! ### Paths -/

theorem not_mem_of_mem_splitOn {c : Char} {cs segment : List Char} (h : segment ∈ cs.splitOn c) :
  c ∉ segment
  := by
  induction cs generalizing segment with
  | nil =>
      obtain rfl := List.mem_singleton.mp h
      apply List.not_mem_nil
  | cons d cs ih =>
      rw [List.splitOn_cons_eq_if_modifyHead] at h
      split_ifs at h with hd
      · rcases List.mem_cons.mp h with rfl | h
        · apply List.not_mem_nil
        · apply ih h
      · -- the first segment begins with `d`, which is not `c`
        obtain ⟨s, ss, hsplit⟩ := List.exists_cons_of_ne_nil (List.splitOn_ne_nil c cs)
        rw [hsplit, List.modifyHead_cons] at h
        rcases List.mem_cons.mp h with rfl | h
        · have hs : c ∉ s := ih (by simp [hsplit])
          have hne : c ≠ d := by
            rintro rfl
            simp at hd
          simp [hne, hs]
        · apply ih
          rw [hsplit]
          apply List.mem_cons_of_mem _ h

theorem segments_iff {path : String} {segments : List (List Char)} :
  Segments path segments ↔ path.toList.splitOn '.' = segments
  := by
  constructor
  · rintro ⟨hne, hmem, hpath⟩
    rw [hpath, List.splitOn_intercalate '.' hmem hne]
  · rintro rfl
    refine ⟨List.splitOn_ne_nil _ _, ?_, ?_⟩
    · intro segment h
      apply not_mem_of_mem_splitOn h
    · rw [List.intercalate_splitOn]

theorem walk_ok_iff (path : String) {segments : List (List Char)} {v w : SerdeJson.Value}
    (hv : v.Proper) :
  walk path segments v = .ok w ↔ Reaches segments v w
  := by
  induction segments generalizing v with
  | nil =>
      simp only [walk, Except.ok.injEq]
      constructor
      · rintro rfl
        apply Reaches.here
      · intro h
        cases h
        rfl
  | cons name segments ih =>
      cases hv with
      | other hother =>
          have hget : v.get name = none := by
            cases v with
            | object members => exact absurd rfl (hother members)
            | _ => rfl
          have hnot : ¬ Reaches (name :: segments) v w := by
            intro h
            cases h with
            | member => exact absurd rfl (hother _)
          simp [walk, hget, hnot]
      | @object members hordered hproper =>
          have hget : ∀ next, (SerdeJson.Value.object members).get name = some next
              ↔ (name, next) ∈ members :=
            fun next => SerdeJson.find?_eq_some_iff_mem hordered
          rw [walk]
          cases hnext : (SerdeJson.Value.object members).get name with
          | none =>
              have hnot : ¬ Reaches (name :: segments) (.object members) w := by
                intro h
                cases h with
                | member hmem =>
                    rw [(hget _).mpr hmem] at hnext
                    cases hnext
              simp [hnot]
          | some next =>
              have hmem := (hget next).mp hnext
              simp only [ih (hproper _ hmem)]
              constructor
              · intro h
                exact .member hmem h
              · intro h
                cases h with
                | member hmem' h' =>
                    rw [(hget _).mpr hmem', Option.some.injEq] at hnext
                    rwa [← hnext]

/-- The text that the contract compares with is the plain text. -/
theorem plainText_eq (v : SerdeJson.Value) :
  plainText v = rendering v
  := by
  cases v with
  | string s => rfl
  | _ => rfl

variable {lib : Libraries}

/-- **The check is the meaning.** The contract's check accepts exactly the values that satisfy
the condition. -/
theorem checkValue_ok_iff {condition : SubscriptionCondition} {value : Binary} :
  checkValue lib condition value = .ok () ↔ Satisfies lib condition value
  := by
  cases condition with
  | «exists» => simp [checkValue, Satisfies]
  | equals expected => simp [checkValue, Satisfies]
  | greaterThan threshold encoding =>
      rw [Satisfies, ← compareValues_gt_iff]
      simp only [checkValue, bind, Except.bind]
      cases compareValues value threshold encoding with
      | error e => simp
      | ok o => simp
  | lessThan threshold encoding =>
      rw [Satisfies, ← compareValues_lt_iff]
      simp only [checkValue, bind, Except.bind]
      cases compareValues value threshold encoding with
      | error e => simp
      | ok o => simp
  | jsonPathEquals path expected =>
      simp only [Satisfies, segments_iff]
      unfold checkValue
      cases hjson : SerdeJson.fromSlice lib.float value with
      | none => simp [bind, Except.bind]
      | some json =>
          have hproper := SerdeJson.proper_of_fromSlice hjson
          cases hwalk : walk path (path.toList.splitOn '.') json with
          | error e =>
              have hnot : ∀ reached, ¬ Reaches (path.toList.splitOn '.') json reached := by
                intro reached h
                rw [(walk_ok_iff path hproper).mpr h] at hwalk
                cases hwalk
              simp [bind, Except.bind, hwalk, hnot]
          | ok reached =>
              have hreaches : ∀ r, Reaches (path.toList.splitOn '.') json r ↔ reached = r := by
                intro r
                rw [← walk_ok_iff path hproper, hwalk, Except.ok.injEq]
              simp [bind, Except.bind, hwalk, hreaches, plainText_eq]

end Hub
