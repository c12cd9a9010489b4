import InterchainEvents.Text.Hex
import InterchainEvents.Text.Utf16

/-!
# JSON texts

The documents of the JSON grammar, and the parser of it. A `Json.Doc` keeps what was
written: numbers as literals, strings as the code units they denote, and all members of an
object in order. What a reader makes of them (the value of a number, which of two members
of the same name counts) is left to the reader.

The parser `parse` runs on fuel. It is given enough: whatever some amount of fuel parses,
`parse` parses (`parse_eq_some_of_fuel`).
-/

namespace Json

/-! ### Documents -/

/-- A number literal: its sign, the digits before and after the point, and the sign and the
digits of the exponent. -/
structure NumLit where
  neg : Bool
  int : List ℕ
  frac : Option (List ℕ)
  exp : Option (Bool × List ℕ)
  deriving DecidableEq

/-- The name of a member, or a string value: its code units. -/
abbrev Str : Type := List UInt16

/-- The number that decimal digits denote. -/
def value10 (ds : List ℕ) : ℕ := ds.foldl (fun n d => 10 * n + d) 0

/-- A JSON document. -/
inductive Doc where
  | null
  | bool (b : Bool)
  | num (n : NumLit)
  | str (s : Str)
  | arr (items : List Doc)
  | obj (members : List (Str × Doc))

/-- The member of an object that counts: the last one of that name. -/
def member (name : Str) (members : List (Str × Doc)) : Option Doc :=
  (members.reverse.find? (fun m => m.1 = name)).map Prod.snd

/-- The member of a document, if it is an object that has it. -/
def Doc.get? (name : Str) : Doc → Option Doc
  | .obj members => member name members
  | _ => none

/-- The string with the code units of a text. -/
def str (s : String) : Str := Utf16.encode s.toList

mutual

/-- How deep arrays and objects are nested. -/
def Doc.depth : Doc → ℕ
  | .null => 0
  | .bool _ => 0
  | .num _ => 0
  | .str _ => 0
  | .arr items => depthItems items + 1
  | .obj members => depthMembers members + 1

/-- The greatest depth of the items of an array. -/
def depthItems : List Doc → ℕ
  | [] => 0
  | d :: ds => max d.depth (depthItems ds)

/-- The greatest depth of the members of an object. -/
def depthMembers : List (Str × Doc) → ℕ
  | [] => 0
  | (_, d) :: ms => max d.depth (depthMembers ms)

end

/-! ### Tokens -/

/-- White space between tokens. -/
def isSpace (c : Char) : Bool :=
  c = ' ' || c = '\n' || c = '\r' || c = '\t'

/-- A text after its leading white space. -/
def skip (cs : List Char) : List Char :=
  cs.dropWhile isSpace

/-- Whether a character is a decimal digit. -/
def isDigit (c : Char) : Bool :=
  decide ('0' ≤ c ∧ c ≤ '9')

/-- The value of a decimal digit. -/
def digit (c : Char) : ℕ := c.toNat - '0'.toNat

/-- The code unit of an escape of one letter. -/
def escape (c : Char) : Option UInt16 :=
  match c with
  | '"' => some 0x22
  | '\\' => some 0x5C
  | '/' => some 0x2F
  | 'b' => some 0x08
  | 'f' => some 0x0C
  | 'n' => some 0x0A
  | 'r' => some 0x0D
  | 't' => some 0x09
  | _ => none

/-- A string, after its opening quote, and the text after its closing one. -/
def string : List Char → Option (Str × List Char)
  | [] => none
  | '"' :: cs => some ([], cs)
  | '\\' :: 'u' :: a :: b :: c :: d :: cs => do
      let u := (← Hex.value a) * 0x1000 + (← Hex.value b) * 0x100 + (← Hex.value c) * 0x10
        + (← Hex.value d)
      let (s, rest) ← string cs
      some (UInt16.ofNat u :: s, rest)
  | '\\' :: c :: cs => do
      let u ← escape c
      let (s, rest) ← string cs
      some (u :: s, rest)
  | c :: cs =>
      if c.toNat < 0x20 ∨ c = '\\' then none
      else do
        let (s, rest) ← string cs
        some (Utf16.encodeChar c ++ s, rest)

/-- One or more digits. -/
def digits (cs : List Char) : Option (List ℕ × List Char) :=
  let ds := cs.takeWhile isDigit
  if ds = [] then none else some (ds.map digit, cs.dropWhile isDigit)

/-- The digits before the point: a zero alone, or digits that do not begin with a zero. -/
def intPart (cs : List Char) : Option (List ℕ × List Char) :=
  match cs with
  | '0' :: rest => some ([0], rest)
  | _ => digits cs

/-- The digits after the point, if there is one. -/
def fracPart (cs : List Char) : Option (Option (List ℕ) × List Char) :=
  match cs with
  | '.' :: rest => (digits rest).map fun (ds, rest) => (some ds, rest)
  | _ => some (none, cs)

/-- The exponent, if there is one. -/
def expPart (cs : List Char) : Option (Option (Bool × List ℕ) × List Char) :=
  match cs with
  | c :: '-' :: rest =>
      if c = 'e' ∨ c = 'E' then (digits rest).map fun (ds, rest) => (some (true, ds), rest)
      else some (none, cs)
  | c :: '+' :: rest =>
      if c = 'e' ∨ c = 'E' then (digits rest).map fun (ds, rest) => (some (false, ds), rest)
      else some (none, cs)
  | c :: rest =>
      if c = 'e' ∨ c = 'E' then (digits rest).map fun (ds, rest) => (some (false, ds), rest)
      else some (none, cs)
  | [] => some (none, [])

/-- A number literal, and the text after it. -/
def number (cs : List Char) : Option (NumLit × List Char) := do
  let (neg, cs) := match cs with
    | '-' :: rest => (true, rest)
    | _ => (false, cs)
  let (int, cs) ← intPart cs
  let (frac, cs) ← fracPart cs
  let (exp, cs) ← expPart cs
  some (⟨neg, int, frac, exp⟩, cs)

/-- The text after the next token, if that token is the punctuation mark `c`. -/
def after (c : Char) (cs : List Char) : Option (List Char) :=
  match skip cs with
  | c' :: rest => if c' = c then some rest else none
  | [] => none

/-- How a value begins. -/
inductive Opening where
  | literal (d : Doc) (rest : List Char)
  | string (rest : List Char)
  | array (rest : List Char)
  | object (rest : List Char)
  | number (cs : List Char)

/-- How the value begins that comes first in a text. -/
def opening (cs : List Char) : Opening :=
  match skip cs with
  | 'n' :: 'u' :: 'l' :: 'l' :: rest => .literal .null rest
  | 't' :: 'r' :: 'u' :: 'e' :: rest => .literal (.bool true) rest
  | 'f' :: 'a' :: 'l' :: 's' :: 'e' :: rest => .literal (.bool false) rest
  | '"' :: rest => .string rest
  | '[' :: rest => .array rest
  | '{' :: rest => .object rest
  | rest => .number rest

/-- The name of a member and the text after its colon. -/
def memberName (cs : List Char) : Option (Str × List Char) := do
  let (name, rest) ← string (← after '"' cs)
  some (name, ← after ':' rest)

/-! ### The parser -/

mutual

/-- A value, and the text after it. -/
def value : ℕ → List Char → Option (Doc × List Char)
  | 0, _ => none
  | n + 1, cs =>
      match opening cs with
      | .literal d rest => some (d, rest)
      | .string rest => (string rest).map fun (s, rest) => (.str s, rest)
      | .array rest =>
          match after ']' rest with
          | some rest => some (.arr [], rest)
          | none => (items n rest).map fun (ds, rest) => (.arr ds, rest)
      | .object rest =>
          match after '}' rest with
          | some rest => some (.obj [], rest)
          | none => (members n rest).map fun (ms, rest) => (.obj ms, rest)
      | .number cs => (number cs).map fun (l, rest) => (.num l, rest)

/-- One or more items of an array, up to its closing bracket. -/
def items : ℕ → List Char → Option (List Doc × List Char)
  | 0, _ => none
  | n + 1, cs =>
      (value n cs).bind fun (d, rest) =>
        match after ',' rest with
        | some rest => (items n rest).map fun (ds, rest) => (d :: ds, rest)
        | none => (after ']' rest).map fun rest => ([d], rest)

/-- One or more members of an object, up to its closing brace. -/
def members : ℕ → List Char → Option (List (Str × Doc) × List Char)
  | 0, _ => none
  | n + 1, cs =>
      (memberName cs).bind fun (name, rest) =>
        (value n rest).bind fun (d, rest) =>
          match after ',' rest with
          | some rest => (members n rest).map fun (ms, rest) => ((name, d) :: ms, rest)
          | none => (after '}' rest).map fun rest => ([(name, d)], rest)

end

/-- The document a text is, if it is one. -/
def parse (cs : List Char) : Option Doc :=
  match value (2 * cs.length) cs with
  | some (d, rest) => if skip rest = [] then some d else none
  | none => none

/-! ### Members -/

/-- The last member of a name comes among the later members or is the first. -/
theorem member_cons (name : Str) (m : Str × Doc) (members : List (Str × Doc)) :
  member name (m :: members)
    = (member name members).or (if m.1 = name then some m.2 else none)
  := by
  rw [member, List.reverse_cons, List.find?_append, member]
  cases (members.reverse.find? fun m => m.1 = name) with
  | some m' => rfl
  | none =>
      by_cases h : m.1 = name
      · simp [h]
      · simp [h]

theorem member_eq_none {name : Str} {members : List (Str × Doc)}
    (h : name ∉ members.map Prod.fst) :
  member name members = none
  := by
  induction members with
  | nil => rfl
  | cons m members ih =>
      rw [List.map_cons, List.mem_cons, not_or] at h
      have hne : ¬ m.1 = name := fun heq => h.1 heq.symm
      rw [member_cons, ih h.2, if_neg hne]
      rfl

/-- Among members of different names, each is the member of its name. -/
theorem member_of_mem {name : Str} {d : Doc} {members : List (Str × Doc)}
    (hnodup : (members.map Prod.fst).Nodup) (h : (name, d) ∈ members) :
  member name members = some d
  := by
  induction members with
  | nil => contradiction
  | cons m members ih =>
      rw [List.map_cons, List.nodup_cons] at hnodup
      rw [member_cons]
      rcases List.mem_cons.mp h with rfl | h
      · rw [member_eq_none hnodup.1]
        simp
      · rw [ih hnodup.2 h]
        rfl

/-! ### The fuel is enough -/

theorem length_dropWhile_le (p : Char → Bool) (cs : List Char) :
  (cs.dropWhile p).length ≤ cs.length
  := (List.dropWhile_suffix p).length_le

theorem length_after {c : Char} {cs rest : List Char} (h : after c cs = some rest) :
  rest.length < cs.length
  := by
  have hskip := length_dropWhile_le isSpace cs
  unfold after skip at h
  split at h
  · rename_i c' rest' heq
    obtain ⟨-, h⟩ := Option.ite_none_right_eq_some.mp h
    obtain rfl := Option.some.inj h
    rw [heq, List.length_cons] at hskip
    omega
  · cases h

theorem length_string {cs : List Char} :
  ∀ {s rest}, string cs = some (s, rest) → rest.length < cs.length
  := by
  fun_induction string cs with
  | case1 => simp
  | case2 cs => simp_all
  | case3 a b c d cs ih =>
      intro s rest h
      simp only [Option.bind_eq_bind, Option.bind_eq_some_iff] at h
      obtain ⟨_, _, _, _, _, _, _, _, ⟨s', rest'⟩, hs', h⟩ := h
      obtain ⟨-, rfl⟩ := Prod.mk.inj (Option.some.inj h)
      have := ih hs'
      simp only [List.length_cons]
      omega
  | case4 c cs _ ih =>
      intro s rest h
      simp only [Option.bind_eq_bind, Option.bind_eq_some_iff] at h
      obtain ⟨_, _, ⟨s', rest'⟩, hs', h⟩ := h
      obtain ⟨-, rfl⟩ := Prod.mk.inj (Option.some.inj h)
      have := ih hs'
      simp only [List.length_cons]
      omega
  | case5 => simp
  | case6 c cs _ _ _ _ ih =>
      intro s rest h
      simp only [Option.bind_eq_bind, Option.bind_eq_some_iff] at h
      obtain ⟨⟨s', rest'⟩, hs', h⟩ := h
      obtain ⟨-, rfl⟩ := Prod.mk.inj (Option.some.inj h)
      have := ih hs'
      simp only [List.length_cons]
      omega

theorem length_digits {cs : List Char} {ds rest} (h : digits cs = some (ds, rest)) :
  rest.length < cs.length
  := by
  obtain ⟨hne, h⟩ := Option.ite_none_left_eq_some.mp h
  obtain ⟨-, rfl⟩ := Prod.mk.inj (Option.some.inj h)
  have hsplit := congrArg List.length (List.takeWhile_append_dropWhile (p := isDigit) (l := cs))
  have hpos := List.length_pos_of_ne_nil hne
  rw [List.length_append] at hsplit
  omega

theorem length_intPart {cs : List Char} {ds rest} (h : intPart cs = some (ds, rest)) :
  rest.length < cs.length
  := by
  unfold intPart at h
  split at h
  · obtain ⟨-, rfl⟩ := Prod.mk.inj (Option.some.inj h)
    simp
  · apply length_digits h

theorem length_fracPart {cs : List Char} {ds rest} (h : fracPart cs = some (ds, rest)) :
  rest.length ≤ cs.length
  := by
  unfold fracPart at h
  split at h
  · obtain ⟨⟨ds', rest'⟩, hd, h⟩ := Option.map_eq_some_iff.mp h
    obtain ⟨-, rfl⟩ := Prod.mk.inj h
    have := length_digits hd
    rw [List.length_cons]
    omega
  · obtain ⟨-, rfl⟩ := Prod.mk.inj (Option.some.inj h)
    apply Nat.le_refl

theorem length_expPart {cs : List Char} {e rest} (h : expPart cs = some (e, rest)) :
  rest.length ≤ cs.length
  := by
  unfold expPart at h
  split at h
  case h_4 =>
      obtain ⟨-, rfl⟩ := Prod.mk.inj (Option.some.inj h)
      apply Nat.le_refl
  all_goals
    split_ifs at h
    · obtain ⟨⟨ds', rest'⟩, hd, h⟩ := Option.map_eq_some_iff.mp h
      obtain ⟨-, rfl⟩ := Prod.mk.inj h
      have := length_digits hd
      simp only [List.length_cons]
      omega
    · obtain ⟨-, rfl⟩ := Prod.mk.inj (Option.some.inj h)
      apply Nat.le_refl

theorem length_number {cs : List Char} {l rest} (h : number cs = some (l, rest)) :
  rest.length < cs.length
  := by
  unfold number at h
  simp only [Option.bind_eq_bind, Option.bind_eq_some_iff] at h
  obtain ⟨⟨int, cs₁⟩, hint, ⟨frac, cs₂⟩, hfrac, ⟨exp, cs₃⟩, hexp, h⟩ := h
  obtain ⟨-, rfl⟩ := Prod.mk.inj (Option.some.inj h)
  have h₁ := length_intPart hint
  have h₂ := length_fracPart hfrac
  have h₃ := length_expPart hexp
  dsimp only at h₁ h₂ h₃ ⊢
  split at h₁
  · rw [List.length_cons]
    dsimp only at h₁
    omega
  · dsimp only at h₁
    omega

/-- The text an opening leaves is shorter than the text it was found in, but for a number,
where it is not longer. -/
def Opening.Shortens (cs : List Char) : Opening → Prop
  | .literal _ rest => rest.length < cs.length
  | .string rest => rest.length < cs.length
  | .array rest => rest.length < cs.length
  | .object rest => rest.length < cs.length
  | .number rest => rest.length ≤ cs.length

theorem opening_shortens (cs : List Char) :
  (opening cs).Shortens cs
  := by
  have hskip := length_dropWhile_le isSpace cs
  unfold opening skip
  split <;> rename_i heq
  case h_7 => apply hskip
  all_goals
    rw [heq] at hskip
    simp only [List.length_cons] at hskip
    simp only [Opening.Shortens]
    omega

theorem length_memberName {cs : List Char} {name rest} (h : memberName cs = some (name, rest)) :
  rest.length < cs.length
  := by
  unfold memberName at h
  simp only [Option.bind_eq_bind, Option.bind_eq_some_iff] at h
  obtain ⟨cs₁, h₁, ⟨s, cs₂⟩, h₂, cs₃, h₃, h⟩ := h
  obtain ⟨-, rfl⟩ := Prod.mk.inj (Option.some.inj h)
  have := length_after h₁
  have := length_string h₂
  have := length_after h₃
  dsimp only at *
  omega

/-- A parser on fuel that answers leaves a shorter text, and answers the same on any fuel
that is twice the length it read. -/
def Steady {α : Type} (p : ℕ → List Char → Option (α × List Char)) (n : ℕ) : Prop :=
  ∀ cs a rest, p n cs = some (a, rest) →
    rest.length < cs.length ∧
      ∀ m, 2 * (cs.length - rest.length) ≤ m + 1 → p (m + 1) cs = some (a, rest)

theorem Steady.at {α : Type} {p : ℕ → List Char → Option (α × List Char)} {n : ℕ}
    (hp : Steady p n) {cs : List Char} {a : α} {rest : List Char}
    (h : p n cs = some (a, rest)) {m : ℕ} (hm : 2 * (cs.length - rest.length) ≤ m) :
  p m cs = some (a, rest)
  := by
  obtain ⟨hlt, hp⟩ := hp cs a rest h
  obtain ⟨m, rfl⟩ : ∃ m', m = m' + 1 := ⟨m - 1, by omega⟩
  apply hp m hm

theorem value_steady_succ {n : ℕ} (hitems : Steady items n) (hmembers : Steady members n) :
  Steady value (n + 1)
  := by
  intro cs a rest h
  have hopen := opening_shortens cs
  simp only [value] at h ⊢
  cases ho : opening cs with
  | literal d r =>
      simp only [ho, Opening.Shortens] at h hopen ⊢
      obtain ⟨rfl, rfl⟩ := Prod.mk.inj (Option.some.inj h)
      use hopen
      intro m hm
      rfl
  | string r =>
      simp only [ho, Opening.Shortens] at h hopen ⊢
      obtain ⟨⟨s, r'⟩, hs, h'⟩ := Option.map_eq_some_iff.mp h
      simp only [Prod.mk.injEq] at h'
      obtain ⟨-, rfl⟩ := h'
      have := length_string hs
      use by omega
      intro m hm
      apply h
  | array r =>
      simp only [ho, Opening.Shortens] at h hopen ⊢
      cases ha : after ']' r with
      | some r' =>
          simp only [ha] at h ⊢
          obtain ⟨-, rfl⟩ := Prod.mk.inj (Option.some.inj h)
          have := length_after ha
          use by omega
          intro m hm
          apply h
      | none =>
          simp only [ha] at h ⊢
          obtain ⟨⟨ds, r'⟩, hi, h⟩ := Option.map_eq_some_iff.mp h
          simp only [Prod.mk.injEq] at h
          obtain ⟨rfl, rfl⟩ := h
          have := (hitems _ _ _ hi).1
          use by omega
          intro m hm
          rw [hitems.at hi (by omega)]
          rfl
  | object r =>
      simp only [ho, Opening.Shortens] at h hopen ⊢
      cases ha : after '}' r with
      | some r' =>
          simp only [ha] at h ⊢
          obtain ⟨-, rfl⟩ := Prod.mk.inj (Option.some.inj h)
          have := length_after ha
          use by omega
          intro m hm
          apply h
      | none =>
          simp only [ha] at h ⊢
          obtain ⟨⟨ms, r'⟩, hi, h⟩ := Option.map_eq_some_iff.mp h
          simp only [Prod.mk.injEq] at h
          obtain ⟨rfl, rfl⟩ := h
          have := (hmembers _ _ _ hi).1
          use by omega
          intro m hm
          rw [hmembers.at hi (by omega)]
          rfl
  | number r =>
      simp only [ho, Opening.Shortens] at h hopen ⊢
      obtain ⟨⟨l, r'⟩, hl, h'⟩ := Option.map_eq_some_iff.mp h
      simp only [Prod.mk.injEq] at h'
      obtain ⟨-, rfl⟩ := h'
      have := length_number hl
      use by omega
      intro m hm
      apply h

theorem items_steady_succ {n : ℕ} (hvalue : Steady value n) (hitems : Steady items n) :
  Steady items (n + 1)
  := by
  intro cs a rest h
  simp only [items] at h ⊢
  obtain ⟨⟨d, r⟩, hd, h⟩ := Option.bind_eq_some_iff.mp h
  have hr := (hvalue _ _ _ hd).1
  cases hc : after ',' r with
  | some r' =>
      simp only [hc] at h
      obtain ⟨⟨ds, r''⟩, hi, h⟩ := Option.map_eq_some_iff.mp h
      simp only [Prod.mk.injEq] at h
      obtain ⟨rfl, rfl⟩ := h
      have := length_after hc
      have := (hitems _ _ _ hi).1
      use by omega
      intro m hm
      rw [hvalue.at hd (by omega), Option.bind_some, hc]
      dsimp only
      rw [hitems.at hi (by omega), Option.map_some]
  | none =>
      simp only [hc] at h
      obtain ⟨r', hb, h⟩ := Option.map_eq_some_iff.mp h
      simp only [Prod.mk.injEq] at h
      obtain ⟨rfl, rfl⟩ := h
      have := length_after hb
      use by omega
      intro m hm
      rw [hvalue.at hd (by omega), Option.bind_some, hc]
      dsimp only
      rw [hb, Option.map_some]

theorem members_steady_succ {n : ℕ} (hvalue : Steady value n) (hmembers : Steady members n) :
  Steady members (n + 1)
  := by
  intro cs a rest h
  simp only [members] at h ⊢
  obtain ⟨⟨name, r₀⟩, hn, h⟩ := Option.bind_eq_some_iff.mp h
  obtain ⟨⟨d, r⟩, hd, h⟩ := Option.bind_eq_some_iff.mp h
  have h₀ := length_memberName hn
  dsimp only at hd
  have hr := (hvalue _ _ _ hd).1
  cases hc : after ',' r with
  | some r' =>
      simp only [hc] at h
      obtain ⟨⟨ds, r''⟩, hi, h⟩ := Option.map_eq_some_iff.mp h
      simp only [Prod.mk.injEq] at h
      obtain ⟨rfl, rfl⟩ := h
      have := length_after hc
      have := (hmembers _ _ _ hi).1
      use by omega
      intro m hm
      rw [hn, Option.bind_some]
      dsimp only
      rw [hvalue.at hd (by omega), Option.bind_some, hc]
      dsimp only
      rw [hmembers.at hi (by omega), Option.map_some]
  | none =>
      simp only [hc] at h
      obtain ⟨r', hb, h⟩ := Option.map_eq_some_iff.mp h
      simp only [Prod.mk.injEq] at h
      obtain ⟨rfl, rfl⟩ := h
      have := length_after hb
      use by omega
      intro m hm
      rw [hn, Option.bind_some]
      dsimp only
      rw [hvalue.at hd (by omega), Option.bind_some, hc]
      dsimp only
      rw [hb, Option.map_some]

/-- The three parsers are steady, on any fuel. -/
theorem steady (n : ℕ) :
  Steady value n ∧ Steady items n ∧ Steady members n
  := by
  induction n with
  | zero =>
      refine ⟨?_, ?_, ?_⟩ <;> intro cs a rest h <;> cases h
  | succ n ih =>
      obtain ⟨hvalue, hitems, hmembers⟩ := ih
      constructor
      · apply value_steady_succ hitems hmembers
      · constructor
        · apply items_steady_succ hvalue hitems
        · apply members_steady_succ hvalue hmembers

/-- **Enough fuel.** What a value is read as on any fuel, it is read as by `parse`. -/
theorem parse_eq_some_of_fuel {n : ℕ} {cs : List Char} {d : Doc} {rest : List Char}
    (h : value n cs = some (d, rest)) (hrest : skip rest = []) :
  parse cs = some d
  := by
  have hvalue := (steady n).1.at h (m := 2 * cs.length) (by omega)
  unfold parse
  rw [hvalue]
  dsimp only
  rw [if_pos hrest]

/-! ### Texts that are no documents -/

theorem number_beyond {c : Char} (hc : 0x80 ≤ c.toNat) (cs : List Char) :
  number (c :: cs) = none
  := by
  have hdigit : isDigit c = false := by
    simp only [isDigit, decide_eq_false_iff_not, not_and, Char.le_def, UInt32.le_iff_toNat_le]
    intro _ h
    have : c.val.toNat ≤ 57 := h
    have : c.val.toNat = c.toNat := rfl
    omega
  have hdigits : digits (c :: cs) = none := by simp [digits, hdigit]
  have hint : intPart (c :: cs) = none := by
    unfold intPart
    split
    · rename_i heq
      obtain ⟨rfl, -⟩ := List.cons.inj heq
      contradiction
    · apply hdigits
  have hminus : c ≠ '-' := by
    rintro rfl
    contradiction
  simp [number, hminus, hint]

/-- A document does not begin with a character beyond ASCII. -/
theorem parse_beyond {c : Char} (hc : 0x80 ≤ c.toNat) (cs : List Char) :
  parse (c :: cs) = none
  := by
  have hne {d : Char} (hd : d.toNat < 0x80) : c ≠ d := by
    rintro rfl
    omega
  have hskip : skip (c :: cs) = c :: cs := by
    apply List.dropWhile_cons_of_neg
    simp [isSpace, hne (d := ' ') (by decide), hne (d := '\n') (by decide),
      hne (d := '\r') (by decide), hne (d := '\t') (by decide)]
  have hopening : opening (c :: cs) = .number (c :: cs) := by
    unfold opening
    rw [hskip]
    split
    case h_7 => rfl
    all_goals
      rename_i heq
      obtain ⟨rfl, -⟩ := List.cons.inj heq
      contradiction
  rw [parse, List.length_cons, Nat.mul_succ, value, hopening]
  simp [number_beyond hc]

end Json
