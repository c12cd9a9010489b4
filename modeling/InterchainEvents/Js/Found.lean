import InterchainEvents.Js.Object

/-!
# What a path finds in a document

`Spells d t` says, by the forms of a document, that `String` writes it as the text `t`, and
`Finds names d t` that going from property to property comes to something written so: to a member,
an item or the length of an array, or to what objects and arrays inherit (`Inherits`). These are the
values and texts of `Js.Value` (`spells_iff`, `finds_iff`).
-/

namespace Js

open Json (Str str)

/-! ### Texts of documents -/

mutual

/-- A document is written as a text: an object as a fixed text, and not at all if it has a member
`toString`. -/
inductive Spells : Json.Doc → Str → Prop
  | null : Spells .null (str "null")
  | bool (b : Bool) : Spells (.bool b) (str (toString b))
  | num (l : Json.NumLit) : Spells (.num l) (Utf16.encode (numberText (literal l)))
  | string (s : Str) : Spells (.str s) s
  | array {items : List Json.Doc} {t : Str} : Joins items t → Spells (.arr items) t
  | object {members : List (Str × Json.Doc)} : Json.member (str "toString") members = none →
      Spells (.obj members) (str "[object Object]")

/-- The items of an array are written one after the other, with commas between them. -/
inductive Joins : List Json.Doc → Str → Prop
  | nil : Joins [] []
  | one {d : Json.Doc} {s : Str} : Entry d s → Joins [d] s
  | cons {d d' : Json.Doc} {ds : List Json.Doc} {s t : Str} : Entry d s → Joins (d' :: ds) t →
      Joins (d :: d' :: ds) (s ++ str "," ++ t)

/-- An item of an array is written as a text, `null` as the empty one. -/
inductive Entry : Json.Doc → Str → Prop
  | null : Entry .null []
  | other {d : Json.Doc} {s : Str} : isNull d = false → Spells d s → Entry d s

end

theorem entry_iff {d : Json.Doc} {s : Str} (h : ∀ s, docText d = some s ↔ Spells d s) :
  (if isNull d then some [] else docText d) = some s ↔ Entry d s
  := by
  cases hnull : isNull d with
  | true =>
      obtain rfl : d = .null := by
        cases d <;> first | rfl | cases hnull
      constructor
      · rintro ⟨⟩
        exact .null
      · rintro (_ | ⟨hnot, _⟩)
        · rfl
        · cases hnot
  | false =>
      rw [if_neg Bool.false_ne_true, h]
      constructor
      · exact .other hnull
      · rintro (_ | ⟨_, hs⟩)
        · cases hnull
        · apply hs

mutual

/-- The text that `String` gives is the one the document is written as. -/
theorem spells_iff :
  ∀ {d : Json.Doc} {t : Str}, docText d = some t ↔ Spells d t
  | .null, t => by
      constructor
      · rintro ⟨⟩
        exact .null
      · rintro ⟨⟩
        rfl
  | .bool b, t => by
      constructor
      · rintro ⟨⟩
        exact .bool b
      · rintro ⟨⟩
        rfl
  | .num l, t => by
      constructor
      · intro h
        obtain rfl := Option.some.inj h
        exact .num l
      · rintro ⟨⟩
        rfl
  | .str s, t => by
      constructor
      · rintro ⟨⟩
        exact .string s
      · rintro ⟨⟩
        rfl
  | .arr items, t => by
      rw [docText, joins_iff]
      constructor
      · exact .array
      · rintro ⟨⟩
        assumption
  | .obj members, t => by
      rw [docText]
      cases hmember : Json.member (str "toString") members with
      | none =>
          rw [Option.isSome_none, if_neg Bool.false_ne_true]
          constructor
          · rintro ⟨⟩
            exact .object hmember
          · rintro ⟨⟩
            rfl
      | some d =>
          rw [Option.isSome_some, if_pos rfl]
          constructor
          · rintro ⟨⟩
          · rintro (_ | _ | _ | _ | _ | hnone)
            rw [hmember] at hnone
            cases hnone

/-- The text that joining gives is the one the items are written as. -/
theorem joins_iff :
  ∀ {ds : List Json.Doc} {t : Str}, itemsText ds = some t ↔ Joins ds t
  | [], t => by
      constructor
      · rintro ⟨⟩
        exact .nil
      · rintro ⟨⟩
        rfl
  | [d], t => by
      rw [itemsText, entry_iff fun s => spells_iff]
      constructor
      · exact .one
      · rintro ⟨⟩
        assumption
  | d :: d' :: ds, t => by
      rw [itemsText, Option.bind_eq_some_iff]
      · simp only [Option.map_eq_some_iff, entry_iff fun s => spells_iff, joins_iff]
        constructor
        · rintro ⟨s, hs, rest, hrest, rfl⟩
          exact .cons hs hrest
        · rintro (_ | _ | ⟨hs, hrest⟩)
          exact ⟨_, hs, _, hrest, rfl⟩
      · simp

end

/-! ### What is inherited -/

/-- The text of a function that is built in. -/
def nativeText (name : Str) : Str :=
  str "function " ++ name ++ str "() { [native code] }"

/-- What a path finds in what values inherit from a prototype: its constructor, its methods, and
whatever the path goes on to find from the prototype itself. -/
inductive Inherits (kind : Str) (methods : List Str) (proto : List Str → Str → Prop) :
    List Str → Str → Prop
  | kind : Inherits kind methods proto [str "constructor"] (nativeText kind)
  | method {name : Str} : name ∈ methods → Inherits kind methods proto [name] (nativeText name)
  | proto {names : List Str} {t : Str} : proto names t →
      Inherits kind methods proto (str "__proto__" :: names) t

/-- What a path finds from `Object.prototype`, whose own prototype is `null`. -/
inductive OnObjectPrototype : List Str → Str → Prop
  | here : OnObjectPrototype [] (str "[object Object]")
  | inherits {names : List Str} {t : Str} :
      Inherits (str "Object") objectMethods (fun names t => names = [] ∧ t = str "null") names t →
      OnObjectPrototype names t

/-- What a path finds from `Array.prototype`, which is itself an empty array. -/
inductive OnArrayPrototype : List Str → Str → Prop
  | here : OnArrayPrototype [] []
  | length : OnArrayPrototype [str "length"] (str "0")
  | inherits {names : List Str} {t : Str} :
      Inherits (str "Array") (arrayMethods ++ objectMethods) OnObjectPrototype names t →
      OnArrayPrototype names t

/-! ### What a path finds -/

/-- A path finds a text in a document. -/
inductive Finds : List Str → Json.Doc → Str → Prop
  | here {d : Json.Doc} {t : Str} : Spells d t → Finds [] d t
  /-- Of several members with the name the last one counts. -/
  | member {members : List (Str × Json.Doc)} {name : Str} {names : List Str} {d : Json.Doc}
      {t : Str} : Json.member name members = some d → Finds names d t →
      Finds (name :: names) (.obj members) t
  | item {items : List Json.Doc} {i : ℕ} {names : List Str} {d : Json.Doc} {t : Str} :
      items[i]? = some d → Finds names d t →
      Finds (Utf16.encode (Nat.toDigits 10 i) :: names) (.arr items) t
  | length {items : List Json.Doc} :
      Finds [str "length"] (.arr items) (Utf16.encode (Nat.toDigits 10 items.length))
  | ofObject {members : List (Str × Json.Doc)} {name : Str} {names : List Str} {t : Str} :
      Json.member name members = none →
      Inherits (str "Object") objectMethods OnObjectPrototype (name :: names) t →
      Finds (name :: names) (.obj members) t
  | ofArray {items : List Json.Doc} {names : List Str} {t : Str} :
      Inherits (str "Array") (arrayMethods ++ objectMethods) OnArrayPrototype names t →
      Finds names (.arr items) t

/-- A value has something at the end of a path that is written as a text. -/
def Reaches (v : Value) (names : List Str) (t : Str) : Prop :=
  ∃ x, Value.Leads names v x ∧ x.text = some t

theorem reaches_nil {v : Value} {t : Str} :
  Reaches v [] t ↔ v.text = some t
  := by
  constructor
  · rintro ⟨_, ⟨⟩, h⟩
    apply h
  · intro h
    exact ⟨v, .here, h⟩

theorem reaches_cons {u : Value} {name : Str} {names : List Str} {t : Str} :
  Reaches u (name :: names) t ↔ ∃ v, u.get? name = some v ∧ Reaches v names t
  := by
  constructor
  · rintro ⟨x, _ | ⟨hv, hx⟩, h⟩
    exact ⟨_, hv, x, hx, h⟩
  · rintro ⟨v, hv, x, hx, h⟩
    exact ⟨x, .property hv hx, h⟩

/-- From a value without properties a path finds only the value itself. -/
theorem reaches_of_get?_none {v : Value} (h : ∀ name, v.get? name = none) {names : List Str}
    {t : Str} :
  Reaches v names t ↔ names = [] ∧ v.text = some t
  := by
  cases names with
  | nil => simp [reaches_nil]
  | cons name names => simp [reaches_cons, h]

theorem reaches_function {name : Str} {names : List Str} {t : Str} :
  Reaches (.function name) names t ↔ names = [] ∧ t = nativeText name
  := by
  rw [reaches_of_get?_none fun _ => rfl, Value.text, Option.some.injEq]
  simp [nativeText, eq_comm]

theorem reaches_null {names : List Str} {t : Str} :
  Reaches (.doc .null) names t ↔ names = [] ∧ t = str "null"
  := by
  rw [reaches_of_get?_none fun _ => rfl]
  simp [Value.text, docText, eq_comm]

theorem reaches_length {n : ℕ} {names : List Str} {t : Str} :
  Reaches (.length n) names t ↔ names = [] ∧ t = Utf16.encode (Nat.toDigits 10 n)
  := by
  rw [reaches_of_get?_none fun _ => rfl]
  simp [Value.text, eq_comm]

/-- What a path finds among the properties that come from `Object.prototype`. -/
theorem reaches_fromObject {proto : Value} {name : Str} {names : List Str} {t : Str} :
  (∃ v, fromObject proto name = some v ∧ Reaches v names t)
    ↔ Inherits (str "Object") objectMethods (Reaches proto) (name :: names) t
  := by
  have hmethods : ∀ name ∈ objectMethods, name ≠ str "__proto__" ∧ name ≠ str "constructor" := by
    decide
  constructor
  · rintro ⟨v, hv, hreaches⟩
    rw [fromObject] at hv
    split_ifs at hv with hproto hkind hmethod
    · obtain rfl := Option.some.inj hv
      rw [hproto]
      exact .proto hreaches
    · obtain rfl := Option.some.inj hv
      obtain ⟨rfl, rfl⟩ := reaches_function.mp hreaches
      rw [hkind]
      exact .kind
    · obtain rfl := Option.some.inj hv
      obtain ⟨rfl, rfl⟩ := reaches_function.mp hreaches
      exact .method hmethod
  · rintro (_ | hmethod | hreaches)
    · exact ⟨_, rfl, reaches_function.mpr ⟨rfl, rfl⟩⟩
    · obtain ⟨hproto, hkind⟩ := hmethods name hmethod
      refine ⟨.function name, ?_, reaches_function.mpr ⟨rfl, rfl⟩⟩
      rw [fromObject, if_neg hproto, if_neg hkind, if_pos hmethod]
    · exact ⟨proto, rfl, hreaches⟩

/-- What a path finds among the properties that come from `Array.prototype`. -/
theorem reaches_fromArray {proto : Value} {name : Str} {names : List Str} {t : Str} :
  (∃ v, fromArray proto name = some v ∧ Reaches v names t)
    ↔ Inherits (str "Array") (arrayMethods ++ objectMethods) (Reaches proto) (name :: names) t
  := by
  have harray : ∀ name ∈ arrayMethods, name ≠ str "constructor" := by decide
  have hobject : ∀ name ∈ objectMethods, name ≠ str "__proto__" ∧ name ≠ str "constructor" := by
    decide
  constructor
  · rintro ⟨v, hv, hreaches⟩
    rw [fromArray] at hv
    split_ifs at hv with hkind hmethod
    · obtain rfl := Option.some.inj hv
      obtain ⟨rfl, rfl⟩ := reaches_function.mp hreaches
      rw [hkind]
      exact .kind
    · obtain rfl := Option.some.inj hv
      obtain ⟨rfl, rfl⟩ := reaches_function.mp hreaches
      exact .method (List.mem_append_left _ hmethod)
    · -- the rest is what all objects inherit
      cases reaches_fromObject.mp ⟨v, hv, hreaches⟩ with
      | kind => exact absurd rfl hkind
      | method hmethod => exact .method (List.mem_append_right _ hmethod)
      | proto hreaches => exact .proto hreaches
  · rintro (_ | hmethod | hreaches)
    · exact ⟨_, rfl, reaches_function.mpr ⟨rfl, rfl⟩⟩
    · refine ⟨.function name, ?_, reaches_function.mpr ⟨rfl, rfl⟩⟩
      rw [fromArray]
      by_cases hmem : name ∈ arrayMethods
      · rw [if_neg (harray name hmem), if_pos hmem]
      · have hmethod := (List.mem_append.mp hmethod).resolve_left hmem
        obtain ⟨hproto, hkind⟩ := hobject name hmethod
        rw [if_neg hkind, if_neg hmem, fromObject, if_neg hproto, if_neg hkind, if_pos hmethod]
    · exact ⟨proto, rfl, hreaches⟩

theorem Inherits.congr {kind : Str} {methods : List Str} {P Q : List Str → Str → Prop}
    (h : ∀ names t, P names t ↔ Q names t) {names : List Str} {t : Str} :
  Inherits kind methods P names t ↔ Inherits kind methods Q names t
  := by
  rw [show P = Q from funext fun names => funext fun t => propext (h names t)]

theorem onObjectPrototype_iff {names : List Str} {t : Str} :
  Reaches .objectPrototype names t ↔ OnObjectPrototype names t
  := by
  cases names with
  | nil =>
      rw [reaches_nil]
      constructor
      · rintro ⟨⟩
        exact .here
      · rintro (_ | ⟨⟨⟩⟩)
        rfl
  | cons name names =>
      rw [reaches_cons]
      simp only [Value.get?, reaches_fromObject, Inherits.congr fun names t => reaches_null]
      constructor
      · exact .inherits
      · rintro ⟨⟩
        assumption

/-- The length of an array is not inherited. -/
theorem not_inherits_length {P : List Str → Str → Prop} {names : List Str} {t : Str} :
  ¬ Inherits (str "Array") (arrayMethods ++ objectMethods) P (str "length" :: names) t
  := by
  have hmethods : str "length" ∉ arrayMethods ++ objectMethods := by decide
  have hkind : str "length" ≠ str "constructor" := by decide
  have hproto : str "length" ≠ str "__proto__" := by decide
  generalize str "length" = name at hmethods hkind hproto
  intro h
  cases h with
  | kind => contradiction
  | method hmethod => contradiction
  | proto => contradiction

theorem onArrayPrototype_iff {names : List Str} {t : Str} :
  Reaches .arrayPrototype names t ↔ OnArrayPrototype names t
  := by
  cases names with
  | nil =>
      rw [reaches_nil]
      constructor
      · rintro ⟨⟩
        exact .here
      · rintro (_ | _ | ⟨⟨⟩⟩)
        rfl
  | cons name names =>
      rw [reaches_cons]
      by_cases hlength : name = str "length"
      · subst hlength
        simp only [Value.get?, if_true, Option.some.injEq, exists_eq_left', reaches_length]
        constructor
        · rintro ⟨rfl, rfl⟩
          exact .length
        · rintro (_ | _ | hinherits)
          · exact ⟨rfl, rfl⟩
          · exact absurd hinherits not_inherits_length
      · simp only [Value.get?, if_neg hlength, reaches_fromArray,
          Inherits.congr fun names t => onObjectPrototype_iff]
        constructor
        · exact .inherits
        · rintro (_ | _ | hinherits)
          · contradiction
          · apply hinherits

/-! ### Items -/

/-- A name that is an index begins with a digit. -/
theorem head_index (i : ℕ) :
  ∃ u us, Utf16.encode (Nat.toDigits 10 i) = u :: us ∧ 48 ≤ u.toNat ∧ u.toNat ≤ 57
  := by
  obtain ⟨d, ds, hds⟩ := List.exists_cons_of_ne_nil (Nat.toDigits_ne_nil (n := i) (b := 10))
  have hd := Decimal.toNat_of_isDigit (Decimal.isDigit_of_mem_toDigits (n := i) (c := d)
    (by simp [hds]))
  refine ⟨UInt16.ofNat d.toNat, Utf16.encode ds, ?_, ?_⟩
  · rw [hds, Utf16.encode_cons, Utf16.encodeChar, if_pos (by omega), List.singleton_append]
  · rw [Utf16.toNat_ofNat_of_lt (by omega)]
    apply hd

/-- A name that is an index is none of those that arrays inherit, and not their length. -/
theorem index_ne (i : ℕ) :
  Utf16.encode (Nat.toDigits 10 i) ≠ str "length" ∧
    Utf16.encode (Nat.toDigits 10 i) ≠ str "constructor" ∧
    Utf16.encode (Nat.toDigits 10 i) ≠ str "__proto__" ∧
    Utf16.encode (Nat.toDigits 10 i) ∉ arrayMethods ++ objectMethods
  := by
  obtain ⟨u, us, hindex, hlow, hhigh⟩ := head_index i
  have hall : (str "length" :: str "constructor" :: str "__proto__"
      :: (arrayMethods ++ objectMethods)).all
        (fun name => name.head?.all fun u => decide (57 < u.toNat)) = true := by
    decide
  have hnot : u :: us ∉ str "length" :: str "constructor" :: str "__proto__"
      :: (arrayMethods ++ objectMethods) := by
    intro hmem
    have hlarge : 57 < u.toNat := of_decide_eq_true (List.all_eq_true.mp hall _ hmem)
    omega
  rw [hindex]
  simpa only [List.mem_cons, not_or] using hnot

theorem item_eq_some_iff {name : Str} {items : List Json.Doc} {d : Json.Doc} :
  item name items = some d
    ↔ ∃ i, name = Utf16.encode (Nat.toDigits 10 i) ∧ items[i]? = some d
  := by
  constructor
  · intro h
    obtain ⟨e, he, rfl⟩ := Option.map_eq_some_iff.mp h
    have hname : Utf16.encode (Nat.toDigits 10 e.2) = name := by
      simpa using List.find?_some he
    exact ⟨e.2, hname.symm, List.mem_zipIdx_iff_getElem?.mp (List.mem_of_find?_eq_some he)⟩
  · rintro ⟨i, rfl, hd⟩
    have hmem : (d, i) ∈ items.zipIdx := List.mk_mem_zipIdx_iff_getElem?.mpr hd
    have hsome : (items.zipIdx.find? fun e =>
        Utf16.encode (Nat.toDigits 10 e.2) = Utf16.encode (Nat.toDigits 10 i)).isSome := by
      rw [List.find?_isSome]
      exact ⟨(d, i), hmem, by simp⟩
    obtain ⟨e, he⟩ := Option.isSome_iff_exists.mp hsome
    have hname : Utf16.encode (Nat.toDigits 10 e.2) = Utf16.encode (Nat.toDigits 10 i) := by
      simpa using List.find?_some he
    -- a number has one numeral
    have hindex := Decimal.toDigits_injective (Utf16.encode_injective hname)
    have hitem := List.mem_zipIdx_iff_getElem?.mp (List.mem_of_find?_eq_some he)
    rw [hindex, hd] at hitem
    rw [item, he, Option.map_some, Option.some.inj hitem]

/-- What a path that begins with an index finds is in that item. -/
theorem found_of_index {items : List Json.Doc} {i : ℕ} {names : List Str} {d : Json.Doc} {t : Str}
    (hd : items[i]? = some d)
    (h : Finds (Utf16.encode (Nat.toDigits 10 i) :: names) (.arr items) t) :
  Finds names d t
  := by
  obtain ⟨hlength, hkind, hproto, hmethods⟩ := index_ne i
  generalize hname : Utf16.encode (Nat.toDigits 10 i) = name at h hlength hkind hproto hmethods
  cases h with
  | item hd' h =>
      obtain rfl := Decimal.toDigits_injective (Utf16.encode_injective hname)
      rw [hd] at hd'
      cases hd'
      apply h
  | length => contradiction
  | ofArray h =>
      cases h with
      | kind => contradiction
      | method hmethod => contradiction
      | proto => contradiction

theorem found_of_length {items : List Json.Doc} {names : List Str} {t : Str}
    (h : Finds (str "length" :: names) (.arr items) t) :
  names = [] ∧ t = Utf16.encode (Nat.toDigits 10 items.length)
  := by
  generalize hname : str "length" = name at h
  cases h with
  | item => exact absurd hname.symm (index_ne _).1
  | length => exact ⟨rfl, rfl⟩
  | ofArray h =>
      subst hname
      exact absurd h not_inherits_length

section Step

variable {name : Str} {names : List Str} {t : Str}
  (ih : ∀ {d : Json.Doc}, Reaches (.doc d) names t ↔ Finds names d t)

include ih

/-- What a path finds in an object is in a member, or inherited if there is none of the name. -/
theorem finds_obj_iff {members : List (Str × Json.Doc)} :
  Reaches (.doc (.obj members)) (name :: names) t ↔ Finds (name :: names) (.obj members) t
  := by
  rw [reaches_cons]
  cases hmember : Json.member name members with
  | some d =>
      simp only [Value.get?, hmember, Option.some.injEq, exists_eq_left', ih]
      constructor
      · exact .member hmember
      · intro h
        cases h with
        | member hmember' h =>
            rw [hmember] at hmember'
            cases hmember'
            apply h
        | ofObject hnone =>
            rw [hmember] at hnone
            cases hnone
  | none =>
      simp only [Value.get?, hmember, reaches_fromObject,
        Inherits.congr fun names t => onObjectPrototype_iff]
      constructor
      · exact .ofObject hmember
      · intro h
        cases h with
        | member hmember' =>
            rw [hmember] at hmember'
            cases hmember'
        | ofObject hnone h => apply h

/-- What a path finds in an array is in an item, the length, or inherited. -/
theorem finds_arr_iff {items : List Json.Doc} :
  Reaches (.doc (.arr items)) (name :: names) t ↔ Finds (name :: names) (.arr items) t
  := by
  rw [reaches_cons]
  cases hitem : item name items with
  | some d =>
      simp only [Value.get?, hitem, Option.some.injEq, exists_eq_left', ih]
      obtain ⟨i, rfl, hd⟩ := item_eq_some_iff.mp hitem
      constructor
      · exact .item hd
      · apply found_of_index hd
  | none =>
      by_cases hlength : name = str "length"
      · subst hlength
        simp only [Value.get?, hitem, if_true, Option.some.injEq, exists_eq_left', reaches_length]
        constructor
        · rintro ⟨rfl, rfl⟩
          exact .length
        · apply found_of_length
      · simp only [Value.get?, hitem, if_neg hlength, reaches_fromArray,
          Inherits.congr fun names t => onArrayPrototype_iff]
        constructor
        · exact .ofArray
        · intro h
          cases h with
          | item hd =>
              rw [item_eq_some_iff.mpr ⟨_, rfl, hd⟩] at hitem
              cases hitem
          | length => contradiction
          | ofArray h => apply h

end Step

/-- What a path finds is the text of what it leads to. -/
theorem finds_iff {names : List Str} {d : Json.Doc} {t : Str} :
  Reaches (.doc d) names t ↔ Finds names d t
  := by
  induction names generalizing d with
  | nil =>
      rw [reaches_nil, Value.text, spells_iff]
      constructor
      · exact .here
      · rintro (h | _ | _ | _ | _ | ⟨⟨⟩⟩)
        apply h
  | cons name names ih =>
      cases d with
      | obj members => apply finds_obj_iff ih
      | arr items => apply finds_arr_iff ih
      | _ =>
          rw [reaches_cons]
          constructor
          · rintro ⟨v, hv, -⟩
            cases hv
          · rintro ⟨⟩

end Js
