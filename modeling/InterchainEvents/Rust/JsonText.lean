import InterchainEvents.Rust.SerdeJson
import InterchainEvents.Text.Decimal

/-!
# What is written is read back

`Value.doc` is the document that the text of a value is (`parse_renderWith`): strings come back
whatever characters they have and in whichever of the ways that JSON allows these are written
(`Written`), and integers come back digit by digit.
-/

namespace SerdeJson

open Decimal (isDigit_of_mem_toDigits toDigits_cases)

/-! ### Documents of values -/

/-- The digits of a number as a literal has them. -/
def digitsOf (n : ℕ) : List ℕ := (Nat.toDigits 10 n).map Json.digit

/-- The literal written for a number. -/
def Number.literal : Number → Json.NumLit
  | .posInt n => ⟨false, digitsOf n, none, none⟩
  | .negInt n => ⟨true, digitsOf n, none, none⟩
  | .float text =>
      match Json.number text with
      | some (l, _) => l
      | none => ⟨false, [0], none, none⟩

mutual

/-- The document written for a value. -/
def Value.doc : Value → Json.Doc
  | .null => .null
  | .bool b => .bool b
  | .number n => .num n.literal
  | .string s => .str (Utf16.encode s)
  | .array items => .arr (docItems items)
  | .object members => .obj (docMembers members)

/-- The documents of the items of an array. -/
def docItems : List Value → List Json.Doc
  | [] => []
  | v :: vs => v.doc :: docItems vs

/-- The documents of the members of an object. -/
def docMembers : List (List Char × Value) → List (Json.Str × Json.Doc)
  | [] => []
  | (name, v) :: ms => (Utf16.encode name, v.doc) :: docMembers ms

end

mutual

/-- All numbers in a value are integers. -/
def Value.Exact : Value → Prop
  | .number (.float _) => False
  | .array items => exactItems items
  | .object members => exactMembers members
  | _ => True

/-- All numbers in the items of an array are integers. -/
def exactItems : List Value → Prop
  | [] => True
  | v :: vs => v.Exact ∧ exactItems vs

/-- All numbers in the members of an object are integers. -/
def exactMembers : List (List Char × Value) → Prop
  | [] => True
  | (_, v) :: ms => v.Exact ∧ exactMembers ms

end

/-! ### Strings -/

theorem string_cons_plain {c : Char} (hquote : c ≠ '"') (hslash : c ≠ '\\')
    (hcontrol : 0x20 ≤ c.toNat) (cs : List Char) :
  Json.string (c :: cs)
    = (Json.string cs).map fun (s, rest) => (Utf16.encodeChar c ++ s, rest)
  := by
  rw [Json.string.eq_def]
  split
  · rename_i heq
    cases heq
  · rename_i heq
    exact absurd (List.cons.inj heq).1 hquote
  · rename_i heq
    exact absurd (List.cons.inj heq).1 hslash
  · rename_i heq
    exact absurd (List.cons.inj heq).1 hslash
  · rename_i heq
    obtain ⟨rfl, rfl⟩ := List.cons.inj heq
    rw [if_neg (by simp [hslash]; omega)]
    cases Json.string cs <;> rfl

/-- A code unit written by its four hexadecimal digits, in either case. -/
inductive UnitText : UInt16 → List Char → Prop
  | digits {a b c d : Char} {k l m n : ℕ} : Hex.value a = some k → Hex.value b = some l →
      Hex.value c = some m → Hex.value d = some n →
      UnitText (UInt16.ofNat (k * 0x1000 + l * 0x100 + m * 0x10 + n)) ['\\', 'u', a, b, c, d]

/-- The ways in which a character may be written in a JSON string: as itself, by a letter, or by
its code units. -/
inductive Written : Char → List Char → Prop
  | plain {c : Char} : c ≠ '"' → c ≠ '\\' → 0x20 ≤ c.toNat → Written c [c]
  | short {c l : Char} {u : UInt16} : Json.escape l = some u → Utf16.encodeChar c = [u] →
      Written c ['\\', l]
  | unit {c : Char} {u : UInt16} {text : List Char} : Utf16.encodeChar c = [u] →
      UnitText u text → Written c text
  | pair {c : Char} {u v : UInt16} {text text' : List Char} : Utf16.encodeChar c = [u, v] →
      UnitText u text → UnitText v text' → Written c (text ++ text')

/-- Every character is written in one of these ways. -/
def Standard (esc : Char → List Char) : Prop :=
  ∀ c, Written c (esc c)

theorem string_unitText {u : UInt16} {text : List Char} (h : UnitText u text) (cs : List Char) :
  Json.string (text ++ cs) = (Json.string cs).map fun (s, rest) => (u :: s, rest)
  := by
  obtain ⟨ha, hb, hc, hd⟩ := h
  simp only [List.cons_append, List.nil_append, Json.string, ha, hb, hc, hd, Option.bind_eq_bind,
    Option.bind_some]
  cases Json.string cs <;> rfl

/-- A character escaped by one letter. -/
theorem string_short {l : Char} {u : UInt16} (hescape : Json.escape l = some u) (cs : List Char) :
  Json.string ('\\' :: l :: cs) = (Json.string cs).map fun (s, rest) => (u :: s, rest)
  := by
  rw [Json.string.eq_def]
  split
  · rename_i heq
    cases heq
  · rename_i heq
    cases heq
  · rename_i heq
    obtain ⟨-, heq⟩ := List.cons.inj heq
    obtain ⟨rfl, rfl⟩ := List.cons.inj heq
    contradiction
  · rename_i heq
    obtain ⟨-, heq⟩ := List.cons.inj heq
    obtain ⟨rfl, rfl⟩ := List.cons.inj heq
    rw [hescape]
    cases Json.string cs <;> rfl
  · -- the escape is one of the cases above
    rename_i hnot heq
    obtain ⟨rfl, rfl⟩ := List.cons.inj heq
    exact (hnot l cs rfl rfl).elim

/-- A character that is written is read as its code units. -/
theorem string_written {c : Char} {text : List Char} (h : Written c text) (cs : List Char) :
  Json.string (text ++ cs)
    = (Json.string cs).map fun (s, rest) => (Utf16.encodeChar c ++ s, rest)
  := by
  cases h with
  | plain hquote hslash hcontrol => apply string_cons_plain hquote hslash hcontrol
  | short hescape hunits =>
      rw [hunits]
      apply string_short hescape
  | unit hunits htext =>
      rw [hunits]
      apply string_unitText htext
  | pair hunits htext htext' =>
      rw [hunits, List.append_assoc, string_unitText htext, string_unitText htext']
      cases Json.string cs <;> rfl

/-- What is written for a character by `serde_json`. -/
theorem standard_escape :
  Standard escape
  := by
  intro c
  have hchar {n : ℕ} (h : c.toNat = n) : c = Char.ofNat n := by
    rw [← h, Char.ofNat_toNat]
  unfold escape
  split_ifs with hquote hslash hb hf hn hr ht hcontrol
  · subst hquote
    exact .short rfl rfl
  · subst hslash
    exact .short rfl rfl
  · obtain rfl := hchar hb
    exact .short rfl rfl
  · obtain rfl := hchar hf
    exact .short rfl rfl
  · subst hn
    exact .short rfl rfl
  · subst hr
    exact .short rfl rfl
  · subst ht
    exact .short rfl rfl
  · -- two zeros and the two digits of the code
    have hcode : 0 * 0x1000 + 0 * 0x100 + c.toNat / 16 * 0x10 + c.toNat % 16 = c.toNat := by omega
    have hdigits := UnitText.digits (by decide : Hex.value '0' = some 0)
      (by decide : Hex.value '0' = some 0) (Hex.value_digitChar (c.toNat / 16) (by omega))
      (Hex.value_digitChar (c.toNat % 16) (by omega))
    rw [hcode] at hdigits
    apply Written.unit _ hdigits
    rw [Utf16.encodeChar, if_pos (by omega)]
  · exact .plain hquote hslash (by omega)

/-- A string that was written is read back. -/
theorem string_flatMap {esc : Char → List Char} (hesc : Standard esc) (s rest : List Char) :
  Json.string (s.flatMap esc ++ '"' :: rest) = some (Utf16.encode s, rest)
  := by
  induction s with
  | nil => rfl
  | cons c s ih =>
      rw [List.flatMap_cons, List.append_assoc, string_written (hesc c), ih]
      rfl

/-! ### Numbers -/

/-- What follows a value in an array or an object, or nothing. -/
def Delimits (rest : List Char) : Prop :=
  ∀ c ∈ rest.head?, c = ',' ∨ c = ']' ∨ c = '}'

theorem delimits_cons {c : Char} (h : c = ',' ∨ c = ']' ∨ c = '}') (cs : List Char) :
  Delimits (c :: cs)
  := by
  intro d hd
  obtain rfl := Option.some.inj hd
  apply h

theorem value10_digitsOf (n : ℕ) :
  Json.value10 (digitsOf n) = n
  := by
  have h : Nat.ofDigitChars 10 (Nat.toDigits 10 n) 0 = n := Nat.ofDigitChars_ten_toDigits
  rw [Nat.ofDigitChars_eq_foldl] at h
  rw [Json.value10, digitsOf, List.foldl_map]
  apply h

theorem takeWhile_digits {ds rest : List Char} (hds : ∀ c ∈ ds, Json.isDigit c = true)
    (hrest : Delimits rest) :
  (ds ++ rest).takeWhile Json.isDigit = ds ∧ (ds ++ rest).dropWhile Json.isDigit = rest
  := by
  have hstop : rest.takeWhile Json.isDigit = [] ∧ rest.dropWhile Json.isDigit = rest := by
    cases rest with
    | nil => simp
    | cons c cs =>
        have hc : Json.isDigit c = false := by
          rcases hrest c rfl with rfl | rfl | rfl <;> decide
        simp [hc]
  rw [List.takeWhile_append_of_pos hds, List.dropWhile_append_of_pos hds, hstop.1, hstop.2]
  simp

theorem intPart_toDigits (n : ℕ) {rest : List Char} (hrest : Delimits rest) :
  Json.intPart (Nat.toDigits 10 n ++ rest) = some (digitsOf n, rest)
  := by
  rcases toDigits_cases n with h | ⟨c, cs, h, hc⟩
  · rw [digitsOf, h]
    rfl
  · have hds : ∀ d ∈ c :: cs, Json.isDigit d = true := by
      intro d hd
      rw [← h] at hd
      apply isDigit_of_mem_toDigits hd
    obtain ⟨htake, hdrop⟩ := takeWhile_digits hds hrest
    rw [digitsOf, h, Json.intPart]
    · rw [Json.digits, htake, hdrop, if_neg (by simp)]
    · rintro r hr
      exact absurd (List.cons.inj hr).1 hc

theorem fracPart_of_delimits {rest : List Char} (hrest : Delimits rest) :
  Json.fracPart rest = some (none, rest)
  := by
  unfold Json.fracPart
  split
  · rcases hrest '.' rfl with h | h | h <;> cases h
  · rfl

theorem expPart_of_delimits {rest : List Char} (hrest : Delimits rest) :
  Json.expPart rest = some (none, rest)
  := by
  cases rest with
  | nil => rfl
  | cons c cs =>
      have hc : ¬ (c = 'e' ∨ c = 'E') := by
        rcases hrest c rfl with rfl | rfl | rfl <;> decide
      unfold Json.expPart
      split
      all_goals
        rename_i heq
        cases heq
      all_goals rw [if_neg hc]

/-- An integer that was written is read back. -/
theorem number_text {n : Number} (hn : ∀ text, n ≠ .float text) {rest : List Char}
    (hrest : Delimits rest) :
  Json.number (n.text ++ rest) = some (n.literal, rest)
  := by
  cases n with
  | float text => exact absurd rfl (hn text)
  | posInt n =>
      have hminus : ∀ cs, Nat.toDigits 10 n ++ rest ≠ '-' :: cs := by
        intro cs h
        obtain ⟨c, ds, hds⟩ := List.exists_cons_of_ne_nil (Nat.toDigits_ne_nil (n := n) (b := 10))
        have hc : Json.isDigit c = true := isDigit_of_mem_toDigits (n := n) (by simp [hds])
        rw [hds] at h
        obtain ⟨rfl, -⟩ := List.cons.inj h
        contradiction
      unfold Json.number
      simp only [Number.text]
      simp only [intPart_toDigits n hrest, fracPart_of_delimits hrest, expPart_of_delimits hrest,
        Option.bind_eq_bind, Option.bind_some]
      rfl
  | negInt n =>
      simp only [Number.text, List.cons_append, Json.number, intPart_toDigits n hrest,
        fracPart_of_delimits hrest, expPart_of_delimits hrest, Option.bind_eq_bind,
        Option.bind_some]
      rfl

/-- The literal of an integer of 64 bits denotes it. -/
theorem number_literal (float : Json.NumLit → Option (List Char)) {n : ℕ} (hn : n < 2 ^ 64) :
  number float (Number.posInt n).literal = some (.posInt n)
  := by
  simp only [number, Number.literal, value10_digitsOf]
  rw [if_pos ⟨trivial, trivial, trivial, hn⟩]

theorem number_literal_of_ge {n : ℕ} (hn : 2 ^ 64 ≤ n) :
  number (fun _ => none) (Number.posInt n).literal = none
  := by
  simp only [number, Number.literal, value10_digitsOf]
  rw [if_neg (by omega), if_neg (by simp), Option.map_none]

/-- The literal of a negative integer does not denote a natural number. -/
theorem number_literal_ne_posInt (float : Json.NumLit → Option (List Char)) (n k : ℕ) :
  number float (Number.negInt n).literal ≠ some (.posInt k)
  := by
  simp only [number, Number.literal, value10_digitsOf]
  rw [if_neg (by simp)]
  split_ifs
  · simp
  · cases float ⟨true, digitsOf n, none, none⟩ <;> simp

/-! ### Texts of values -/

section Texts

variable (esc : Char → List Char)

/-- A string between its quotes, its characters being written by `esc`. -/
def quoteWith (s : List Char) : List Char :=
  '"' :: s.flatMap esc ++ ['"']

mutual

/-- The text of a value, the members of objects in the order in which they are given. -/
def Value.renderWith : Value → List Char
  | .null => "null".toList
  | .bool b => (toString b).toList
  | .number n => n.text
  | .string s => quoteWith esc s
  | .array items => '[' :: renderItemsWith items ++ [']']
  | .object members => '{' :: renderMembersWith members ++ ['}']

/-- The items of an array with the commas between them. -/
def renderItemsWith : List Value → List Char
  | [] => []
  | [v] => v.renderWith
  | v :: vs => v.renderWith ++ ',' :: renderItemsWith vs

/-- The members of an object with the commas between them. -/
def renderMembersWith : List (List Char × Value) → List Char
  | [] => []
  | [(name, v)] => quoteWith esc name ++ ':' :: v.renderWith
  | (name, v) :: ms => quoteWith esc name ++ ':' :: v.renderWith ++ ',' :: renderMembersWith ms

end

end Texts

mutual

/-- The text that `serde_json` writes is one of these. -/
theorem renderWith_escape : ∀ v : Value, v.renderWith escape = v.render
  | .null => rfl
  | .bool b => rfl
  | .number n => rfl
  | .string s => rfl
  | .array items => by rw [Value.renderWith, Value.render, renderItemsWith_escape]
  | .object members => by rw [Value.renderWith, Value.render, renderMembersWith_escape]

theorem renderItemsWith_escape : ∀ vs : List Value, renderItemsWith escape vs = renderItems vs
  | [] => rfl
  | [v] => by rw [renderItemsWith, renderItems, renderWith_escape]
  | v :: w :: vs => by
      rw [renderItemsWith, renderItems, renderWith_escape, renderItemsWith_escape]
      all_goals simp

theorem renderMembersWith_escape : ∀ ms : List (List Char × Value),
    renderMembersWith escape ms = renderMembers ms
  | [] => rfl
  | [(name, v)] => by
      rw [renderMembersWith, renderMembers, renderWith_escape]
      rfl
  | (name, v) :: (name', w) :: ms => by
      rw [renderMembersWith, renderMembers, renderWith_escape, renderMembersWith_escape]
      · rfl
      all_goals simp

end

/-! ### Values -/

/-- How the text of a value begins: with no white space, and with nothing that closes. -/
theorem renderWith_cons (esc : Char → List Char) (v : Value) (hv : v.Exact) :
  ∃ c cs, v.renderWith esc = c :: cs ∧ Json.isSpace c = false ∧ c ≠ ']' ∧ c ≠ '}'
  := by
  cases v with
  | null => exact ⟨_, _, rfl, by decide⟩
  | bool b => cases b <;> exact ⟨_, _, rfl, by decide⟩
  | string s => exact ⟨_, _, rfl, by decide⟩
  | array items => exact ⟨_, _, rfl, by decide⟩
  | object members => exact ⟨_, _, rfl, by decide⟩
  | number n =>
      cases n with
      | float text => exact hv.elim
      | negInt n => exact ⟨_, _, rfl, by decide⟩
      | posInt n =>
          obtain ⟨c, cs, h⟩ := List.exists_cons_of_ne_nil (Nat.toDigits_ne_nil (n := n) (b := 10))
          have hc : Json.isDigit c = true := isDigit_of_mem_toDigits (n := n) (by simp [h])
          use c, cs, h
          refine ⟨?_, ?_, ?_⟩
          · by_contra hspace
            simp only [Json.isSpace, Bool.not_eq_false, Bool.or_eq_true, decide_eq_true_eq]
              at hspace
            rcases hspace with ((rfl | rfl) | rfl) | rfl <;> contradiction
          · rintro rfl
            contradiction
          · rintro rfl
            contradiction

theorem skip_cons {c : Char} (h : Json.isSpace c = false) (cs : List Char) :
  Json.skip (c :: cs) = c :: cs
  := List.dropWhile_cons_of_neg (by simp [h])

theorem after_cons_self {c : Char} (h : Json.isSpace c = false) (cs : List Char) :
  Json.after c (c :: cs) = some cs
  := by
  rw [Json.after, skip_cons h]
  simp

theorem after_cons_of_ne {c d : Char} (h : Json.isSpace d = false) (hne : d ≠ c)
    (cs : List Char) :
  Json.after c (d :: cs) = none
  := by
  rw [Json.after, skip_cons h]
  simp [hne]

/-- The text of a number is opened as a number. -/
theorem opening_number {n : Number} (hn : ∀ text, n ≠ .float text) (rest : List Char) :
  Json.opening (n.text ++ rest) = .number (n.text ++ rest)
  := by
  have hfirst : ∃ c cs, n.text = c :: cs ∧ (Json.isDigit c = true ∨ c = '-') := by
    cases n with
    | float text => exact absurd rfl (hn text)
    | negInt n => exact ⟨_, _, rfl, .inr rfl⟩
    | posInt n =>
        obtain ⟨c, cs, h⟩ := List.exists_cons_of_ne_nil (Nat.toDigits_ne_nil (n := n) (b := 10))
        exact ⟨c, cs, h, .inl (isDigit_of_mem_toDigits (n := n) (by simp [h]))⟩
  obtain ⟨c, cs, htext, hc⟩ := hfirst
  have hspace : Json.isSpace c = false := by
    obtain ⟨d, ds, hd, hspace, -⟩ := renderWith_cons escape (.number n) (by
      cases n with
      | float text => exact absurd rfl (hn text)
      | _ => trivial)
    have h : n.text = d :: ds := hd
    rw [htext] at h
    rw [(List.cons.inj h).1]
    apply hspace
  rw [htext, List.cons_append, Json.opening, skip_cons hspace]
  split
  case h_7 => rfl
  all_goals
    rename_i heq
    obtain ⟨rfl, -⟩ := List.cons.inj heq
    rcases hc with hc | hc <;> contradiction

/-- A name that was written is read back, with the colon after it. -/
theorem memberName_quoteWith {esc : Char → List Char} (hesc : Standard esc)
    (name rest : List Char) :
  Json.memberName (quoteWith esc name ++ ':' :: rest) = some (Utf16.encode name, rest)
  := by
  have htext : quoteWith esc name ++ ':' :: rest
      = '"' :: (name.flatMap esc ++ '"' :: ':' :: rest) := by
    simp [quoteWith]
  rw [htext, Json.memberName, after_cons_self (by decide)]
  simp only [Option.bind_eq_bind, Option.bind_some, string_flatMap hesc,
    after_cons_self (c := ':') (by decide)]

/-- A string that was written is read back. -/
theorem value_string {esc : Char → List Char} (hesc : Standard esc) (m : ℕ) (cs rest : List Char) :
  Json.value (m + 1) ((Value.string cs).renderWith esc ++ rest)
    = some ((Value.string cs).doc, rest)
  := by
  have htext : (Value.string cs).renderWith esc ++ rest
      = '"' :: (cs.flatMap esc ++ '"' :: rest) := by
    simp [Value.renderWith, quoteWith]
  have hopening : ∀ ds, Json.opening ('"' :: ds) = .string ds := fun ds => rfl
  rw [htext, Json.value, hopening]
  dsimp only
  rw [string_flatMap hesc]
  rfl

/-- An array is read back if its items are. -/
theorem value_array {esc : Char → List Char} {m : ℕ} {v : Value} {vs : List Value}
    {rest : List Char} (hv : v.Exact)
    (hitems : Json.items m (renderItemsWith esc (v :: vs) ++ ']' :: rest)
      = some (docItems (v :: vs), rest)) :
  Json.value (m + 1) ((Value.array (v :: vs)).renderWith esc ++ rest)
    = some ((Value.array (v :: vs)).doc, rest)
  := by
  have htext : (Value.array (v :: vs)).renderWith esc ++ rest
      = '[' :: (renderItemsWith esc (v :: vs) ++ ']' :: rest) := by
    simp [Value.renderWith]
  have hopening : ∀ cs, Json.opening ('[' :: cs) = .array cs := fun cs => rfl
  -- the first character is that of an item, not the end of the array
  obtain ⟨c, cs, hc, hspace, hclose, -⟩ := renderWith_cons esc v hv
  have hfirst : ∃ ds, renderItemsWith esc (v :: vs) ++ ']' :: rest = c :: ds := by
    cases vs <;> exact ⟨_, by simp only [renderItemsWith, hc, List.cons_append]; rfl⟩
  obtain ⟨ds, hds⟩ := hfirst
  rw [htext, Json.value, hopening]
  dsimp only
  rw [hds, after_cons_of_ne hspace hclose, ← hds]
  dsimp only
  rw [hitems]
  rfl

/-- An object is read back if its members are. -/
theorem value_object {esc : Char → List Char} {m : ℕ} {e : List Char × Value}
    {ms : List (List Char × Value)} {rest : List Char}
    (hmembers : Json.members m (renderMembersWith esc (e :: ms) ++ '}' :: rest)
      = some (docMembers (e :: ms), rest)) :
  Json.value (m + 1) ((Value.object (e :: ms)).renderWith esc ++ rest)
    = some ((Value.object (e :: ms)).doc, rest)
  := by
  have htext : (Value.object (e :: ms)).renderWith esc ++ rest
      = '{' :: (renderMembersWith esc (e :: ms) ++ '}' :: rest) := by
    simp [Value.renderWith]
  have hopening : ∀ cs, Json.opening ('{' :: cs) = .object cs := fun cs => rfl
  have hfirst : ∃ ds, renderMembersWith esc (e :: ms) ++ '}' :: rest = '"' :: ds := by
    obtain ⟨name, v⟩ := e
    cases ms <;> exact ⟨_, rfl⟩
  obtain ⟨ds, hds⟩ := hfirst
  rw [htext, Json.value, hopening]
  dsimp only
  rw [hds, after_cons_of_ne (by decide) (by decide), ← hds]
  dsimp only
  rw [hmembers]
  rfl

mutual

/-- On enough fuel, the text of a value is read as its document. -/
theorem value_renderWith {esc : Char → List Char} (hesc : Standard esc) :
    ∀ v : Value, v.Exact → ∃ n, ∀ m, n ≤ m → ∀ rest, Delimits rest →
      Json.value m (v.renderWith esc ++ rest) = some (v.doc, rest)
  | .null, _ => by
      use 1
      rintro (_ | m) hm rest hrest
      · contradiction
      · rfl
  | .bool b, _ => by
      use 1
      rintro (_ | m) hm rest hrest
      · contradiction
      · cases b <;> rfl
  | .number n, hv => by
      have hn : ∀ text, n ≠ .float text := by
        rintro text rfl
        apply hv
      use 1
      rintro (_ | m) hm rest hrest
      · contradiction
      · rw [Value.renderWith, Json.value, opening_number hn]
        dsimp only
        rw [number_text hn hrest]
        rfl
  | .string s, _ => by
      use 1
      rintro (_ | m) hm rest hrest
      · contradiction
      · apply value_string hesc
  | .array [], _ => by
      use 1
      rintro (_ | m) hm rest hrest
      · contradiction
      · rfl
  | .array (v :: vs), hv => by
      obtain ⟨n, hn⟩ := items_renderWith hesc (v :: vs) hv (by simp)
      use n + 1
      rintro (_ | m) hm rest hrest
      · contradiction
      · apply value_array hv.1 (hn m (by omega) rest)
  | .object [], _ => by
      use 1
      rintro (_ | m) hm rest hrest
      · contradiction
      · rfl
  | .object (e :: ms), hv => by
      obtain ⟨n, hn⟩ := members_renderWith hesc (e :: ms) hv (by simp)
      use n + 1
      rintro (_ | m) hm rest hrest
      · contradiction
      · apply value_object (hn m (by omega) rest)

/-- On enough fuel, the texts of the items of an array are read as their documents. -/
theorem items_renderWith {esc : Char → List Char} (hesc : Standard esc) :
    ∀ vs : List Value, exactItems vs → vs ≠ [] →
    ∃ n, ∀ m, n ≤ m → ∀ rest,
      Json.items m (renderItemsWith esc vs ++ ']' :: rest) = some (docItems vs, rest)
  | [], _, h => absurd rfl h
  | [v], hv, _ => by
      obtain ⟨n, hn⟩ := value_renderWith hesc v hv.1
      use n + 1
      rintro (_ | m) hm rest
      · contradiction
      · rw [renderItemsWith, Json.items, hn m (by omega) _ (delimits_cons (by simp) _),
          Option.bind_some]
        dsimp only
        rw [after_cons_of_ne (by decide) (by decide)]
        dsimp only
        rw [after_cons_self (by decide)]
        rfl
  | v :: w :: vs, hv, _ => by
      obtain ⟨n, hn⟩ := value_renderWith hesc v hv.1
      obtain ⟨k, hk⟩ := items_renderWith hesc (w :: vs) hv.2 (by simp)
      use max n k + 1
      rintro (_ | m) hm rest
      · contradiction
      · have htext : renderItemsWith esc (v :: w :: vs) ++ ']' :: rest
            = v.renderWith esc ++ ',' :: (renderItemsWith esc (w :: vs) ++ ']' :: rest) := by
          simp [renderItemsWith]
        rw [htext, Json.items, hn m (by omega) _ (delimits_cons (by simp) _), Option.bind_some]
        dsimp only
        rw [after_cons_self (by decide)]
        dsimp only
        rw [hk m (by omega) rest]
        rfl

/-- On enough fuel, the texts of the members of an object are read as their documents. -/
theorem members_renderWith {esc : Char → List Char} (hesc : Standard esc) :
    ∀ ms : List (List Char × Value), exactMembers ms → ms ≠ [] →
    ∃ n, ∀ m, n ≤ m → ∀ rest,
      Json.members m (renderMembersWith esc ms ++ '}' :: rest) = some (docMembers ms, rest)
  | [], _, h => absurd rfl h
  | [(name, v)], hv, _ => by
      obtain ⟨n, hn⟩ := value_renderWith hesc v hv.1
      use n + 1
      rintro (_ | m) hm rest
      · contradiction
      · have htext : renderMembersWith esc [(name, v)] ++ '}' :: rest
            = quoteWith esc name ++ ':' :: (v.renderWith esc ++ '}' :: rest) := by
          simp [renderMembersWith]
        rw [htext, Json.members, memberName_quoteWith hesc, Option.bind_some]
        dsimp only
        rw [hn m (by omega) _ (delimits_cons (by simp) _), Option.bind_some]
        dsimp only
        rw [after_cons_of_ne (by decide) (by decide)]
        dsimp only
        rw [after_cons_self (by decide)]
        rfl
  | (name, v) :: (name', w) :: ms, hv, _ => by
      obtain ⟨n, hn⟩ := value_renderWith hesc v hv.1
      obtain ⟨k, hk⟩ := members_renderWith hesc ((name', w) :: ms) hv.2 (by simp)
      use max n k + 1
      rintro (_ | m) hm rest
      · contradiction
      · have htext : renderMembersWith esc ((name, v) :: (name', w) :: ms) ++ '}' :: rest
            = quoteWith esc name ++ ':' :: (v.renderWith esc
              ++ ',' :: (renderMembersWith esc ((name', w) :: ms) ++ '}' :: rest)) := by
          simp [renderMembersWith]
        rw [htext, Json.members, memberName_quoteWith hesc, Option.bind_some]
        dsimp only
        rw [hn m (by omega) _ (delimits_cons (by simp) _), Option.bind_some]
        dsimp only
        rw [after_cons_self (by decide)]
        dsimp only
        rw [hk m (by omega) rest]
        rfl

end

/-- **The text of a value is its document**, however its strings are written. -/
theorem parse_renderWith {esc : Char → List Char} (hesc : Standard esc) {v : Value}
    (hv : v.Exact) :
  Json.parse (v.renderWith esc) = some v.doc
  := by
  obtain ⟨n, hn⟩ := value_renderWith hesc v hv
  have h := hn n (Nat.le_refl n) [] (by simp [Delimits])
  rw [List.append_nil] at h
  apply Json.parse_eq_some_of_fuel h rfl

/-- The text that `serde_json` writes for a value is its document. -/
theorem parse_render {v : Value} (hv : v.Exact) :
  Json.parse v.render = some v.doc
  := by
  rw [← renderWith_escape]
  apply parse_renderWith standard_escape hv

/-- The text of an integer is its document. -/
theorem parse_number_text {n : Number} (hn : ∀ text, n ≠ .float text) :
  Json.parse n.text = some (.num n.literal)
  := by
  have hexact : (Value.number n).Exact := by
    cases n with
    | float text => exact absurd rfl (hn text)
    | _ => trivial
  apply parse_render hexact

end SerdeJson
