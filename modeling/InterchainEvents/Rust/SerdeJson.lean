import Mathlib.Algebra.Order.Ring.Nat
import Mathlib.Data.Char
import Mathlib.Data.List.Lex
import InterchainEvents.Text.Json

/-!
# JSON values as `serde_json` has them

`fromSlice` reads bytes as a JSON value: the bytes are UTF-8, the document is nested less
than 128 deep, every string is a text, and of the members of an object with one name the
last counts. An integer that fits 64 bits is kept exactly, any other number as a double.
`Value.render` writes a value without white space, the members of objects in the order of
their names.

How a double is read and written is left to a parameter `float`: the text `serde_json`
writes for the double it reads a literal as, or nothing when the literal is out of range.

In what is read, the members of objects are in order (`proper_of_fromSlice`).
-/

namespace SerdeJson

/-- A number: an integer that fits 64 bits, or the text of a double. -/
inductive Number where
  | posInt (n : ℕ)
  | negInt (n : ℕ)
  | float (text : List Char)
  deriving DecidableEq

/-- A value. In what is read, the members of an object are in the order of their names. -/
inductive Value where
  | null
  | bool (b : Bool)
  | number (n : Number)
  | string (s : List Char)
  | array (items : List Value)
  | object (members : List (List Char × Value))

/-! ### Reading -/

/-- The members of an object, one of them set. -/
def insert (name : List Char) (v : Value) :
    List (List Char × Value) → List (List Char × Value)
  | [] => [(name, v)]
  | (k, w) :: ms =>
      if name < k then (name, v) :: (k, w) :: ms
      else if name = k then (name, v) :: ms
      else (k, w) :: insert name v ms

section Reading

variable (float : Json.NumLit → Option (List Char))

/-- The number a literal denotes. -/
def number (l : Json.NumLit) : Option Number :=
  let n := Json.value10 l.int
  if l.frac = none ∧ l.exp = none ∧ l.neg = false ∧ n < 2 ^ 64 then some (.posInt n)
  else if l.frac = none ∧ l.exp = none ∧ l.neg = true ∧ 0 < n ∧ n ≤ 2 ^ 63 then some (.negInt n)
  else (float l).map .float

/-- The text a string denotes. -/
def string (s : Json.Str) : Option (List Char) :=
  if Utf16.Valid s then some (Utf16.text s) else none

mutual

/-- The value of a document. -/
def ofDoc : Json.Doc → Option Value
  | .null => some .null
  | .bool b => some (.bool b)
  | .num l => (number float l).map .number
  | .str s => (string s).map .string
  | .arr items => (ofItems items).map .array
  | .obj members => (ofMembers [] members).map .object

/-- The values of the items of an array. -/
def ofItems : List Json.Doc → Option (List Value)
  | [] => some []
  | d :: ds => (ofDoc d).bind fun v => (ofItems ds).map (v :: ·)

/-- The members of an object, added to those read so far. -/
def ofMembers (read : List (List Char × Value)) :
    List (Json.Str × Json.Doc) → Option (List (List Char × Value))
  | [] => some read
  | (s, d) :: ms =>
      (string s).bind fun name => (ofDoc d).bind fun v => ofMembers (insert name v read) ms

end

/-- The value written in the bytes. -/
def fromSlice (bytes : List UInt8) : Option Value :=
  (Utf8.decode? bytes).bind fun cs =>
    (Json.parse cs).bind fun d =>
      if d.depth < 128 then ofDoc float d else none

end Reading

/-- The member of that name, if the value is an object that has one. -/
def Value.get (name : List Char) : Value → Option Value
  | .object members => (members.find? (fun m => m.1 = name)).map Prod.snd
  | _ => none

/-! ### Objects in order -/

/-- The names of the members are in order, so no two are the same. -/
def Ordered (members : List (List Char × Value)) : Prop :=
  members.Pairwise (fun m m' => m.1 < m'.1)

/-- The members of every object are in order, down to where an array or a scalar begins. -/
inductive Value.Proper : Value → Prop
  | object {members} : Ordered members → (∀ m ∈ members, m.2.Proper) → Proper (.object members)
  | other {v} : (∀ members, v ≠ .object members) → Proper v

theorem mem_insert {name : List Char} {v : Value} {members : List (List Char × Value)}
    {m : List Char × Value} (h : m ∈ insert name v members) :
  m = (name, v) ∨ m ∈ members
  := by
  induction members with
  | nil =>
      left
      simpa [insert] using h
  | cons m' members ih =>
      obtain ⟨k, w⟩ := m'
      rw [insert] at h
      split_ifs at h
      · rcases List.mem_cons.mp h with h | h
        · left
          apply h
        · right
          apply h
      · rcases List.mem_cons.mp h with h | h
        · left
          apply h
        · right
          apply List.mem_cons_of_mem _ h
      · rcases List.mem_cons.mp h with rfl | h
        · right
          apply List.mem_cons_self
        · rcases ih h with h | h
          · left
            apply h
          · right
            apply List.mem_cons_of_mem _ h

theorem ordered_insert {members : List (List Char × Value)} (h : Ordered members)
    (name : List Char) (v : Value) :
  Ordered (insert name v members)
  := by
  induction members with
  | nil => apply List.pairwise_singleton
  | cons m members ih =>
      obtain ⟨k, w⟩ := m
      obtain ⟨hk, hmembers⟩ := List.pairwise_cons.mp h
      rw [insert]
      split_ifs with hlt heq
      · apply List.pairwise_cons.mpr
        refine ⟨?_, h⟩
        intro m hm
        rcases List.mem_cons.mp hm with rfl | hm
        · apply hlt
        · apply lt_trans hlt (hk m hm)
      · apply List.pairwise_cons.mpr
        refine ⟨?_, hmembers⟩
        rw [heq]
        apply hk
      · apply List.pairwise_cons.mpr
        refine ⟨?_, ih hmembers⟩
        intro m hm
        rcases mem_insert hm with rfl | hm
        · apply lt_of_le_of_ne (not_lt.mp hlt) (Ne.symm heq)
        · apply hk m hm

mutual

theorem proper_of_ofDoc {float : Json.NumLit → Option (List Char)} :
  ∀ {d : Json.Doc} {v : Value}, ofDoc float d = some v → v.Proper
  | .null, v, h => by
      obtain rfl := Option.some.inj h
      exact .other (by simp)
  | .bool b, v, h => by
      obtain rfl := Option.some.inj h
      exact .other (by simp)
  | .num l, v, h => by
      obtain ⟨n, -, rfl⟩ := Option.map_eq_some_iff.mp h
      exact .other (by simp)
  | .str s, v, h => by
      obtain ⟨cs, -, rfl⟩ := Option.map_eq_some_iff.mp h
      exact .other (by simp)
  | .arr items, v, h => by
      obtain ⟨vs, -, rfl⟩ := Option.map_eq_some_iff.mp h
      exact .other (by simp)
  | .obj members, v, h => by
      obtain ⟨ms, hms, rfl⟩ := Option.map_eq_some_iff.mp h
      have := proper_of_ofMembers .nil (by simp) hms
      exact .object this.1 this.2

theorem proper_of_ofMembers {float : Json.NumLit → Option (List Char)} :
  ∀ {ms : List (Json.Str × Json.Doc)} {read members : List (List Char × Value)},
    Ordered read → (∀ m ∈ read, m.2.Proper) → ofMembers float read ms = some members →
      Ordered members ∧ ∀ m ∈ members, m.2.Proper
  | [], read, members, hread, hproper, h => by
      obtain rfl := Option.some.inj h
      exact ⟨hread, hproper⟩
  | (s, d) :: ms, read, members, hread, hproper, h => by
      obtain ⟨name, -, h⟩ := Option.bind_eq_some_iff.mp h
      obtain ⟨v, hv, h⟩ := Option.bind_eq_some_iff.mp h
      apply proper_of_ofMembers (ordered_insert hread name v) _ h
      intro m hm
      rcases mem_insert hm with rfl | hm
      · apply proper_of_ofDoc hv
      · apply hproper m hm

end

theorem proper_of_fromSlice {float : Json.NumLit → Option (List Char)} {bytes : List UInt8}
    {v : Value} (h : fromSlice float bytes = some v) :
  v.Proper
  := by
  obtain ⟨cs, -, h⟩ := Option.bind_eq_some_iff.mp h
  obtain ⟨d, -, h⟩ := Option.bind_eq_some_iff.mp h
  obtain ⟨-, h⟩ := Option.ite_none_right_eq_some.mp h
  apply proper_of_ofDoc h

/-- In an object that is in order, a name has at most one member. -/
theorem find?_eq_some_iff_mem {members : List (List Char × Value)} (h : Ordered members)
    {name : List Char} {v : Value} :
  (members.find? (fun m => m.1 = name)).map Prod.snd = some v ↔ (name, v) ∈ members
  := by
  induction members with
  | nil => simp
  | cons m members ih =>
      obtain ⟨k, w⟩ := m
      obtain ⟨hk, hmembers⟩ := List.pairwise_cons.mp h
      by_cases heq : k = name
      · subst heq
        have hnot : (k, v) ∉ members := fun hm => lt_irrefl k (hk (k, v) hm)
        simp [hnot, eq_comm]
      · have : ¬ name = k := fun h => heq h.symm
        simp [heq, this, ih hmembers]

/-! ### Members of what was read -/

theorem get_cons (name k : List Char) (v : Value) (members : List (List Char × Value)) :
  (Value.object ((k, v) :: members)).get name
    = if k = name then some v else (Value.object members).get name
  := by
  by_cases h : k = name <;> simp [Value.get, h]

theorem get_insert (name k : List Char) (v : Value) (members : List (List Char × Value)) :
  (Value.object (insert k v members)).get name
    = if k = name then some v else (Value.object members).get name
  := by
  induction members with
  | nil => rw [insert, get_cons]
  | cons m members ih =>
      obtain ⟨k', w⟩ := m
      rw [insert]
      by_cases hlt : k < k'
      · rw [if_pos hlt, get_cons]
      · rw [if_neg hlt]
        by_cases heq : k = k'
        · subst heq
          rw [if_pos rfl, get_cons, get_cons]
          by_cases h : k = name <;> simp [h]
        · rw [if_neg heq, get_cons, get_cons, ih]
          by_cases h : k' = name
          · have : ¬ k = name := fun h' => heq (h'.trans h.symm)
            rw [if_pos h, if_neg this, if_pos h]
          · rw [if_neg h, if_neg h]

section Members

variable {float : Json.NumLit → Option (List Char)}

theorem string_eq_some_iff {s : Json.Str} {cs : List Char} :
  string s = some cs ↔ s = Utf16.encode cs
  := by
  rw [string]
  constructor
  · intro h
    obtain ⟨hs, h⟩ := Option.ite_none_right_eq_some.mp h
    apply (Utf16.text_eq_iff_of_valid hs).mp (Option.some.inj h)
  · rintro rfl
    rw [if_pos (Utf16.valid_encode cs), Utf16.text_encode]

/-- A member of the object read is what the last member of that name in the document is read as,
if there is one, or was read before. -/
theorem get_ofMembers {ms : List (Json.Str × Json.Doc)} {read members : List (List Char × Value)}
    (h : ofMembers float read ms = some members) (name : List Char) :
  (Value.object members).get name
    = (Json.member (Utf16.encode name) ms).elim ((Value.object read).get name) (ofDoc float)
  := by
  induction ms generalizing read with
  | nil =>
      obtain rfl := Option.some.inj h
      rfl
  | cons m ms ih =>
      obtain ⟨s, d⟩ := m
      obtain ⟨k, hk, hrest⟩ := Option.bind_eq_some_iff.mp h
      obtain ⟨v, hv, hrest⟩ := Option.bind_eq_some_iff.mp hrest
      obtain rfl := string_eq_some_iff.mp hk
      rw [ih hrest, get_insert, Json.member_cons]
      cases Json.member (Utf16.encode name) ms with
      | some d' => rfl
      | none =>
          by_cases heq : k = name
          · simp [heq, hv]
          · have : ¬ Utf16.encode k = Utf16.encode name := fun h => heq (Utf16.encode_injective h)
            simp [heq, this]

theorem exists_ofDoc_of_ofMembers {ms : List (Json.Str × Json.Doc)}
    {read members : List (List Char × Value)} (h : ofMembers float read ms = some members)
    {m : Json.Str × Json.Doc} (hm : m ∈ ms) :
  ∃ v, ofDoc float m.2 = some v
  := by
  induction ms generalizing read with
  | nil => contradiction
  | cons m' ms ih =>
      obtain ⟨s, d⟩ := m'
      obtain ⟨k, hk, hrest⟩ := Option.bind_eq_some_iff.mp h
      obtain ⟨v, hv, hrest⟩ := Option.bind_eq_some_iff.mp hrest
      rcases List.mem_cons.mp hm with rfl | hm
      · use v
      · apply ih hrest hm

/-- The member of a value read from a document is read from the member of the document. -/
theorem get_ofDoc {d : Json.Doc} {v : Value} (h : ofDoc float d = some v) (name : List Char) :
  v.get name = (d.get? (Utf16.encode name)).bind (ofDoc float)
  := by
  cases d with
  | obj ms =>
      obtain ⟨members, hmembers, rfl⟩ := Option.map_eq_some_iff.mp h
      rw [get_ofMembers hmembers, Json.Doc.get?]
      cases Json.member (Utf16.encode name) ms <;> rfl
  | null =>
      obtain rfl := Option.some.inj h
      rfl
  | bool b =>
      obtain rfl := Option.some.inj h
      rfl
  | num l =>
      obtain ⟨n, -, rfl⟩ := Option.map_eq_some_iff.mp h
      rfl
  | str s =>
      obtain ⟨cs, -, rfl⟩ := Option.map_eq_some_iff.mp h
      rfl
  | arr items =>
      obtain ⟨vs, -, rfl⟩ := Option.map_eq_some_iff.mp h
      rfl

/-- The members of a document that is read are read. -/
theorem exists_ofDoc_of_get? {d d' : Json.Doc} {v : Value} (h : ofDoc float d = some v)
    {name : Json.Str} (hd : d.get? name = some d') :
  ∃ w, ofDoc float d' = some w
  := by
  cases d with
  | obj ms =>
      obtain ⟨members, hmembers, rfl⟩ := Option.map_eq_some_iff.mp h
      obtain ⟨m, hm, rfl⟩ := Option.map_eq_some_iff.mp hd
      apply exists_ofDoc_of_ofMembers hmembers
      simpa using List.mem_of_find?_eq_some hm
  | _ => contradiction

end Members

/-! ### Writing -/

/-- The text of a number. -/
def Number.text : Number → List Char
  | .posInt n => Nat.toDigits 10 n
  | .negInt n => '-' :: Nat.toDigits 10 n
  | .float text => text

/-- A character as written in a string. -/
def escape (c : Char) : List Char :=
  if c = '"' then ['\\', '"']
  else if c = '\\' then ['\\', '\\']
  else if c.toNat = 0x08 then ['\\', 'b']
  else if c.toNat = 0x0C then ['\\', 'f']
  else if c = '\n' then ['\\', 'n']
  else if c = '\r' then ['\\', 'r']
  else if c = '\t' then ['\\', 't']
  else if c.toNat < 0x20 then
    ['\\', 'u', '0', '0', Nat.digitChar (c.toNat / 16), Nat.digitChar (c.toNat % 16)]
  else [c]

/-- A string between its quotes. -/
def quote (s : List Char) : List Char :=
  '"' :: s.flatMap escape ++ ['"']

mutual

/-- The text of a value. -/
def Value.render : Value → List Char
  | .null => "null".toList
  | .bool b => (toString b).toList
  | .number n => n.text
  | .string s => quote s
  | .array items => '[' :: renderItems items ++ [']']
  | .object members => '{' :: renderMembers members ++ ['}']

/-- The items of an array with the commas between them. -/
def renderItems : List Value → List Char
  | [] => []
  | [v] => v.render
  | v :: vs => v.render ++ ',' :: renderItems vs

/-- The members of an object with the commas between them. -/
def renderMembers : List (List Char × Value) → List Char
  | [] => []
  | [(name, v)] => quote name ++ ':' :: v.render
  | (name, v) :: ms => quote name ++ ':' :: v.render ++ ',' :: renderMembers ms

end

end SerdeJson
