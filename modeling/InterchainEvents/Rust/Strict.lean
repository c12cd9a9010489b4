import InterchainEvents.Rust.SerdeJson

/-!
# Which bytes `serde_json` reads

Bytes are read as a document when they are its text in UTF-8, its arrays and objects are nested less
than 128 deep, its strings have no unpaired surrogates and its numbers are in range: `Strict` says
so of the bytes, without reference to the value that is read (`fromSlice_eq_some_iff`).
-/

namespace SerdeJson

variable (float : Json.NumLit → Option (List Char))

/-! ### Documents -/

/-- A literal in range: an integer of 64 bits, or one that is read as a double. -/
def InRange (l : Json.NumLit) : Prop :=
  (l.frac = none ∧ l.exp = none ∧ l.neg = false ∧ Json.value10 l.int < 2 ^ 64) ∨
    (l.frac = none ∧ l.exp = none ∧ l.neg = true ∧ 0 < Json.value10 l.int ∧
      Json.value10 l.int ≤ 2 ^ 63) ∨
    float l ≠ none

mutual

/-- All numbers in a document are in range, and all its strings and names are texts. -/
inductive Legible : Json.Doc → Prop
  | null : Legible .null
  | bool (b : Bool) : Legible (.bool b)
  | num {l : Json.NumLit} : InRange float l → Legible (.num l)
  | string {s : Json.Str} : Utf16.Valid s → Legible (.str s)
  | array {items : List Json.Doc} : LegibleItems items → Legible (.arr items)
  | object {members : List (Json.Str × Json.Doc)} : LegibleMembers members →
      Legible (.obj members)

/-- All items of an array are legible. -/
inductive LegibleItems : List Json.Doc → Prop
  | nil : LegibleItems []
  | cons {d : Json.Doc} {ds : List Json.Doc} : Legible d → LegibleItems ds → LegibleItems (d :: ds)

/-- All members of an object are legible, and so are their names. -/
inductive LegibleMembers : List (Json.Str × Json.Doc) → Prop
  | nil : LegibleMembers []
  | cons {name : Json.Str} {d : Json.Doc} {ms : List (Json.Str × Json.Doc)} : Utf16.Valid name →
      Legible d → LegibleMembers ms → LegibleMembers ((name, d) :: ms)

end

/-- Bytes that are, in UTF-8 and without a byte order mark, the text of a legible document that is
not nested too deep. -/
def Strict (bytes : List UInt8) (d : Json.Doc) : Prop :=
  ∃ cs, bytes = Utf8.encode cs ∧ Json.parse cs = some d ∧ d.depth < 128 ∧ Legible float d

/-! ### Reading -/

variable {float}

theorem exists_number_iff {l : Json.NumLit} :
  (∃ n, number float l = some n) ↔ InRange float l
  := by
  simp only [number, InRange]
  split_ifs with hpos hneg
  · exact ⟨fun _ => .inl hpos, fun _ => ⟨_, rfl⟩⟩
  · exact ⟨fun _ => .inr (.inl hneg), fun _ => ⟨_, rfl⟩⟩
  · rw [or_iff_right hpos, or_iff_right hneg, ← Option.isSome_iff_ne_none, ← Option.isSome_map,
      Option.isSome_iff_exists]

theorem exists_string_iff {s : Json.Str} :
  (∃ cs, string s = some cs) ↔ Utf16.Valid s
  := by
  rw [string]
  split_ifs with h <;> simp [h]

theorem exists_map_iff {α β : Type} {f : α → β} {x : Option α} :
  (∃ b, x.map f = some b) ↔ ∃ a, x = some a
  := by
  cases x <;> simp

mutual

/-- A document is read exactly when it is legible. -/
theorem exists_ofDoc_iff :
  ∀ {d : Json.Doc}, (∃ v, ofDoc float d = some v) ↔ Legible float d
  | .null => ⟨fun _ => .null, fun _ => ⟨_, rfl⟩⟩
  | .bool b => ⟨fun _ => .bool b, fun _ => ⟨_, rfl⟩⟩
  | .num l => by
      rw [ofDoc, exists_map_iff, exists_number_iff]
      constructor
      · exact .num
      · rintro ⟨⟩
        assumption
  | .str s => by
      rw [ofDoc, exists_map_iff, exists_string_iff]
      constructor
      · exact .string
      · rintro ⟨⟩
        assumption
  | .arr items => by
      rw [ofDoc, exists_map_iff, exists_ofItems_iff]
      constructor
      · exact .array
      · rintro ⟨⟩
        assumption
  | .obj members => by
      rw [ofDoc, exists_map_iff, exists_ofMembers_iff]
      constructor
      · exact .object
      · rintro ⟨⟩
        assumption

theorem exists_ofItems_iff :
  ∀ {ds : List Json.Doc}, (∃ vs, ofItems float ds = some vs) ↔ LegibleItems float ds
  | [] => ⟨fun _ => .nil, fun _ => ⟨_, rfl⟩⟩
  | d :: ds => by
      rw [ofItems]
      constructor
      · rintro ⟨_, h⟩
        obtain ⟨v, hv, h⟩ := Option.bind_eq_some_iff.mp h
        obtain ⟨vs, hvs, -⟩ := Option.map_eq_some_iff.mp h
        exact .cons (exists_ofDoc_iff.mp ⟨v, hv⟩) (exists_ofItems_iff.mp ⟨vs, hvs⟩)
      · rintro (_ | ⟨hd, hds⟩)
        obtain ⟨v, hv⟩ := exists_ofDoc_iff.mpr hd
        obtain ⟨vs, hvs⟩ := exists_ofItems_iff.mpr hds
        exact ⟨v :: vs, by rw [hv, hvs]; rfl⟩

theorem exists_ofMembers_iff :
  ∀ {ms : List (Json.Str × Json.Doc)} {read : List (List Char × Value)},
    (∃ members, ofMembers float read ms = some members) ↔ LegibleMembers float ms
  | [], read => ⟨fun _ => .nil, fun _ => ⟨_, rfl⟩⟩
  | (name, d) :: ms, read => by
      rw [ofMembers]
      constructor
      · rintro ⟨members, h⟩
        obtain ⟨k, hk, h⟩ := Option.bind_eq_some_iff.mp h
        obtain ⟨v, hv, h⟩ := Option.bind_eq_some_iff.mp h
        exact .cons (exists_string_iff.mp ⟨k, hk⟩) (exists_ofDoc_iff.mp ⟨v, hv⟩)
          (exists_ofMembers_iff.mp ⟨members, h⟩)
      · rintro (_ | ⟨hname, hd, hms⟩)
        obtain ⟨k, hk⟩ := exists_string_iff.mpr hname
        obtain ⟨v, hv⟩ := exists_ofDoc_iff.mpr hd
        obtain ⟨members, hmembers⟩ : ∃ members, ofMembers float (insert k v read) ms
            = some members := exists_ofMembers_iff.mpr hms
        exact ⟨members, by rw [hk, Option.bind_some, hv, Option.bind_some, hmembers]⟩

end

/-- **Bytes are read exactly when they are strictly the text of a document**, as which they are
read. -/
theorem fromSlice_eq_some_iff {bytes : List UInt8} {v : Value} :
  fromSlice float bytes = some v ↔ ∃ d, Strict float bytes d ∧ ofDoc float d = some v
  := by
  constructor
  · intro h
    obtain ⟨cs, hcs, h⟩ := Option.bind_eq_some_iff.mp h
    obtain ⟨d, hd, h⟩ := Option.bind_eq_some_iff.mp h
    obtain ⟨hdepth, h⟩ := Option.ite_none_right_eq_some.mp h
    exact ⟨d, ⟨cs, Utf8.decode?_eq_some_iff.mp hcs, hd, hdepth, exists_ofDoc_iff.mp ⟨v, h⟩⟩, h⟩
  · rintro ⟨d, ⟨cs, rfl, hd, hdepth, -⟩, hv⟩
    rw [fromSlice, Utf8.decode?_encode, Option.bind_some, hd, Option.bind_some, if_pos hdepth, hv]

theorem Strict.unique {bytes : List UInt8} {d d' : Json.Doc} (h : Strict float bytes d)
    (h' : Strict float bytes d') :
  d = d'
  := by
  obtain ⟨cs, rfl, hd, -⟩ := h
  obtain ⟨cs', hcs, hd', -⟩ := h'
  obtain rfl := Utf8.encode_injective hcs
  rw [hd] at hd'
  apply Option.some.inj hd'

end SerdeJson
