import InterchainEvents.Watcher.Alike
import InterchainEvents.Watcher.Condition

/-!
# JSON paths, as the watcher and as the contract have them

Both read the value as JSON, walk down a path and compare the text of what they come to. The
contract's reading is strict (`SerdeJson.Strict`) and goes from member to member of objects
(`descend`); the watcher's repairs what is not UTF-8, and also goes through arrays and to what is
inherited (`Js.Finds`); and they write numbers, arrays and objects in their own ways. `Differ` says
for which values, paths and texts they disagree (`checkCondition_iff_checkValue`), `Agreeable` for
which values and paths they agree on every text (`agreeable_iff`).
-/

namespace Watcher

open Shared Hub

/-! ### Members of documents -/

/-- The part of a document that is reached by going from member to member. -/
def descend : List Json.Str → Json.Doc → Option Json.Doc
  | [], d => some d
  | name :: names, d => (d.get? name).bind (descend names)

theorem leads_of_descend {names : List Json.Str} {d d' : Json.Doc} (h : descend names d = some d') :
  Js.Value.Leads names (.doc d) (.doc d')
  := by
  induction names generalizing d with
  | nil =>
      obtain rfl := Option.some.inj h
      apply Js.Value.Leads.here
  | cons name names ih =>
      obtain ⟨next, hnext, h⟩ := Option.bind_eq_some_iff.mp h
      apply Js.Value.Leads.property (Js.Value.get?_of_member hnext) (ih h)

variable {lib : Libraries}

theorem exists_ofDoc_of_descend {names : List Json.Str} {d d' : Json.Doc} {v : SerdeJson.Value}
    (h : SerdeJson.ofDoc lib.float d = some v) (hd : descend names d = some d') :
  ∃ w, SerdeJson.ofDoc lib.float d' = some w
  := by
  induction names generalizing d v with
  | nil =>
      obtain rfl := Option.some.inj hd
      use v
  | cons name names ih =>
      obtain ⟨next, hnext, hd⟩ := Option.bind_eq_some_iff.mp hd
      obtain ⟨w, hw⟩ := SerdeJson.exists_ofDoc_of_get? h hnext
      apply ih hw hd

/-- The contract's walk in what it reads goes from member to member of the document. -/
theorem hub_walk_ok_iff (path : String) {segments : List (List Char)} {d : Json.Doc}
    {v w : SerdeJson.Value} (h : SerdeJson.ofDoc lib.float d = some v) :
  Hub.walk path segments v = .ok w
    ↔ ∃ d', descend (segments.map Utf16.encode) d = some d'
        ∧ SerdeJson.ofDoc lib.float d' = some w
  := by
  induction segments generalizing d v with
  | nil => simp [Hub.walk, descend, h]
  | cons segment segments ih =>
      rw [Hub.walk, SerdeJson.get_ofDoc h, List.map_cons, descend]
      cases hnext : d.get? (Utf16.encode segment) with
      | none => simp
      | some next =>
          obtain ⟨u, hu⟩ := SerdeJson.exists_ofDoc_of_get? h hnext
          simp only [Option.bind_some, hu, ih hu]

theorem legible_of_descend {names : List Json.Str} {d p : Json.Doc}
    (h : SerdeJson.Legible lib.float d) (hp : descend names d = some p) :
  SerdeJson.Legible lib.float p
  := by
  obtain ⟨v, hv⟩ := SerdeJson.exists_ofDoc_iff.mpr h
  apply SerdeJson.exists_ofDoc_iff.mp
  apply exists_ofDoc_of_descend hv hp

/-- Where a path goes from member to member, JavaScript finds what it writes the part as. -/
theorem finds_of_descend {names : List Json.Str} {d p : Json.Doc} (h : descend names d = some p)
    {t : Json.Str} :
  Js.Finds names d t ↔ Js.Spells p t
  := by
  rw [← Js.finds_iff, ← Js.spells_iff]
  have hwalk := walk_eq_some_iff.mpr (leads_of_descend h)
  constructor
  · rintro ⟨x, hx, ht⟩
    rw [← walk_eq_some_iff, hwalk] at hx
    cases hx
    apply ht
  · intro ht
    exact ⟨.doc p, leads_of_descend h, ht⟩

theorem split_eq (path : String) :
  split path = (path.toList.splitOn '.').map Utf16.encode
  := Utf16.splitOn_encode (by decide) path.toList

/-! ### Readings of a value -/

/-- What is strictly a document is decoded as it is: no mark is dropped. -/
theorem parse_textDecode_of_strict {value : Binary} {d : Json.Doc}
    (h : SerdeJson.Strict lib.float value d) :
  Json.parse (Js.textDecode value) = some d
  := by
  obtain ⟨cs, rfl, hd, -⟩ := h
  suffices hdecode : Js.textDecode (Utf8.encode cs) = cs by
    rw [hdecode, hd]
  rw [Js.textDecode, Utf8.decodeLossy_encode]
  apply Js.dropMark_of_head
  intro hhead
  obtain ⟨rest, rfl⟩ := List.head?_eq_some_iff.mp hhead
  rw [Json.parse_beyond (by decide)] at hd
  contradiction

/-- The contract accepts a value that is strictly a document when the part at the end of the path,
going from member to member, is written as expected. -/
theorem checkValue_jsonPath_iff {path expected : String} {value : Binary} :
  checkValue lib (.jsonPathEquals path expected) value = .ok ()
    ↔ ∃ d p, SerdeJson.Strict lib.float value d ∧ descend (split path) d = some p
        ∧ Tells lib.float p (Json.str expected)
  := by
  rw [checkValue_ok_iff, Satisfies]
  constructor
  · rintro ⟨v, segments, w, hv, hsegments, hreaches, htext⟩
    obtain ⟨d, hd, hv'⟩ := SerdeJson.fromSlice_eq_some_iff.mp hv
    obtain rfl := segments_iff.mp hsegments
    have hwalk := (walk_ok_iff path (SerdeJson.proper_of_fromSlice hv)).mpr hreaches
    obtain ⟨p, hp, hw⟩ := (hub_walk_ok_iff path hv').mp hwalk
    rw [← split_eq] at hp
    use d, p, hd, hp
    rw [tells_iff hw, plainText_eq, htext]
    rfl
  · rintro ⟨d, p, hd, hp, htells⟩
    obtain ⟨-, -, -, -, hlegible⟩ := id hd
    obtain ⟨v, hv⟩ := SerdeJson.exists_ofDoc_iff.mpr hlegible
    obtain ⟨w, hw⟩ := exists_ofDoc_of_descend hv hp
    have hslice := SerdeJson.fromSlice_eq_some_iff.mpr ⟨d, hd, hv⟩
    rw [split_eq] at hp
    have hwalk := (hub_walk_ok_iff path hv).mpr ⟨p, hp, hw⟩
    use v, path.toList.splitOn '.', w, hslice, segments_iff.mpr rfl,
      (walk_ok_iff path (SerdeJson.proper_of_fromSlice hslice)).mp hwalk
    rw [← plainText_eq]
    apply Utf16.encode_injective ((tells_iff hw).mp htells)

/-- The text at the end of a path is what JavaScript finds there. -/
theorem textAt_eq_some_iff {path : String} {valueStr : List Char} {t : Json.Str} :
  textAt path valueStr = some t
    ↔ ∃ d, Json.parse valueStr = some d ∧ Js.Finds (split path) d t
  := by
  simp only [textAt, Js.parseJson, Option.bind_map, Option.bind_eq_some_iff, walk_eq_some_iff,
    Function.comp_apply, ← Js.finds_iff, Js.Reaches]

/-- The watcher lets a value pass when the expected text is found at the end of the path, in the
document that it takes the value for. -/
theorem checkCondition_jsonPath_iff {path expected : String} {value : Binary} :
  checkCondition (SubscriptionCondition.toWire (.jsonPathEquals path expected)) value = true
    ↔ ∃ d, Json.parse (Js.textDecode value) = some d
        ∧ Js.Finds (split path) d (Json.str expected)
  := by
  rw [← textAt_eq_some_iff]
  simp only [SubscriptionCondition.toWire, checkCondition]
  cases textAt path (Js.textDecode value) <;> simp

/-! ### Disagreement -/

/-- The bytes of a value, a path and a text on which the watcher and the contract disagree. -/
inductive Differ (lib : Libraries) (value : Binary) (names : List Json.Str) (expected : Json.Str) :
    Prop
  /-- The value is not strictly a document (it is not in UTF-8, begins with a byte order mark, is
  nested too deep, or has an unpaired surrogate or a number out of range), but once repaired it is
  one in which the text is found. -/
  | loose {d : Json.Doc} : (∀ d, ¬ SerdeJson.Strict lib.float value d) →
      Json.parse (Js.textDecode value) = some d → Js.Finds names d expected →
      Differ lib value names expected
  /-- The path does not go from member to member, but the text is found through an item or the
  length of an array, or something inherited. -/
  | stray {d : Json.Doc} : SerdeJson.Strict lib.float value d → descend names d = none →
      Js.Finds names d expected → Differ lib value names expected
  /-- The path goes to an array, and the text is the items with commas or the compact array. -/
  | array {d : Json.Doc} {items : List Json.Doc} : SerdeJson.Strict lib.float value d →
      descend names d = some (.arr items) →
      Js.Joins items expected ∨ Tells lib.float (.arr items) expected →
      Differ lib value names expected
  /-- The path goes to an object, and the text is `[object Object]` (if the object has no member
  `toString`) or the compact object. -/
  | object {d : Json.Doc} {members : List (Json.Str × Json.Doc)} :
      SerdeJson.Strict lib.float value d → descend names d = some (.obj members) →
      (Json.member (Json.str "toString") members = none ∧ expected = Json.str "[object Object]")
        ∨ Tells lib.float (.obj members) expected →
      Differ lib value names expected
  /-- The path goes to a number with two decimals, and the text is one of them. -/
  | number {d : Json.Doc} {l : Json.NumLit} : SerdeJson.Strict lib.float value d →
      descend names d = some (.num l) → ¬ SameDecimal lib.float l →
      expected = Utf16.encode (Js.numberText (Js.literal l)) ∨ Tells lib.float (.num l) expected →
      Differ lib value names expected

/-- A value and a path for which the watcher and the contract agree on every text. -/
inductive Agreeable (lib : Libraries) (value : Binary) (names : List Json.Str) : Prop
  /-- The value is not a document, not even once repaired. -/
  | text : Json.parse (Js.textDecode value) = none → Agreeable lib value names
  /-- The path does not go from member to member of what is strictly a document, and nothing else
  that is a text is found. -/
  | nowhere {d : Json.Doc} : Json.parse (Js.textDecode value) = some d →
      (SerdeJson.Strict lib.float value d → descend names d = none) →
      (∀ t : String, ¬ Js.Finds names d (Json.str t)) → Agreeable lib value names
  /-- The path goes to a string, a boolean, `null` or a number with one decimal. -/
  | plain {d p : Json.Doc} : SerdeJson.Strict lib.float value d → descend names d = some p →
      Plain lib.float p → Agreeable lib value names

section Agreement

variable {value : Binary} {names : List Json.Str} {expected : Json.Str} {d p : Json.Doc}

/-- Either the path does not go from member to member of what is strictly a document, and the text
is found there nevertheless, or it goes to a part that is not written alike. -/
theorem differ_cases (h : Differ lib value names expected) :
  (∃ d, Json.parse (Js.textDecode value) = some d ∧
      (SerdeJson.Strict lib.float value d → descend names d = none) ∧ Js.Finds names d expected) ∨
    ∃ d p, SerdeJson.Strict lib.float value d ∧ descend names d = some p ∧ ¬ Plain lib.float p ∧
      (Js.Spells p expected ∨ Tells lib.float p expected)
  := by
  cases h with
  | loose hnot hd hfinds => exact .inl ⟨_, hd, fun h => absurd h (hnot _), hfinds⟩
  | stray hd hnone hfinds =>
      exact .inl ⟨_, parse_textDecode_of_strict hd, fun _ => hnone, hfinds⟩
  | array hd hp h => exact .inr ⟨_, _, hd, hp, nofun, h.imp_left .array⟩
  | object hd hp h =>
      refine .inr ⟨_, _, hd, hp, nofun, h.imp_left ?_⟩
      rintro ⟨hown, htext⟩
      rw [htext]
      exact .object hown
  | number hd hp hnot h =>
      refine .inr ⟨_, _, hd, hp, fun | .num hsame => hnot hsame, h.imp_left ?_⟩
      intro htext
      rw [htext]
      exact .num _

/-- Where a path goes from member to member of what is strictly a document, the two differ on the
texts of a part that is not written alike. -/
theorem differ_of_descend (hd : SerdeJson.Strict lib.float value d)
    (hp : descend names d = some p) :
  Differ lib value names expected
    ↔ ¬ Plain lib.float p ∧ (Js.Spells p expected ∨ Tells lib.float p expected)
  := by
  constructor
  · intro h
    rcases differ_cases h with ⟨d', hd', hnone, -⟩ | ⟨d', p', hd', hp', h⟩
    · obtain rfl := Option.some.inj ((parse_textDecode_of_strict hd).symm.trans hd')
      rw [hnone hd] at hp
      contradiction
    · obtain rfl := hd.unique hd'
      obtain rfl := Option.some.inj (hp.symm.trans hp')
      apply h
  · rintro ⟨hplain, h⟩
    cases p with
    | null => exact absurd .null hplain
    | bool b => exact absurd (.bool b) hplain
    | str s => exact absurd (.string s) hplain
    | num l =>
        refine .number hd hp (fun hsame => hplain (.num hsame)) (h.imp_left ?_)
        rintro ⟨⟩
        rfl
    | arr items =>
        refine .array hd hp (h.imp_left ?_)
        rintro ⟨⟩
        assumption
    | obj members =>
        refine .object hd hp (h.imp_left ?_)
        rintro ⟨⟩
        exact ⟨‹_›, rfl⟩

/-- Elsewhere they differ on the texts that are found. -/
theorem differ_of_parse (hd : Json.parse (Js.textDecode value) = some d)
    (hnone : SerdeJson.Strict lib.float value d → descend names d = none) :
  Differ lib value names expected ↔ Js.Finds names d expected
  := by
  constructor
  · intro h
    rcases differ_cases h with ⟨d', hd', -, hfinds⟩ | ⟨d', p, hd', hp, -⟩
    · obtain rfl := Option.some.inj (hd.symm.trans hd')
      apply hfinds
    · obtain rfl := Option.some.inj (hd.symm.trans (parse_textDecode_of_strict hd'))
      rw [hnone hd'] at hp
      contradiction
  · intro hfinds
    by_cases hstrict : ∃ d', SerdeJson.Strict lib.float value d'
    · obtain ⟨d', hd'⟩ := hstrict
      obtain rfl := Option.some.inj (hd.symm.trans (parse_textDecode_of_strict hd'))
      exact .stray hd' (hnone hd') hfinds
    · exact .loose (not_exists.mp hstrict) hd hfinds

theorem not_differ_of_parse (hd : Json.parse (Js.textDecode value) = none) :
  ¬ Differ lib value names expected
  := by
  intro h
  rcases differ_cases h with ⟨_, hd', -⟩ | ⟨_, _, hd', -⟩
  · rw [hd] at hd'
    contradiction
  · rw [parse_textDecode_of_strict hd'] at hd
    contradiction

/-- The contract comes to a part when what the watcher takes the value for is strictly a document,
and the path goes from member to member of it. -/
theorem checkValue_of_parse {path expected : String}
    (hd : Json.parse (Js.textDecode value) = some d) :
  checkValue lib (.jsonPathEquals path expected) value = .ok ()
    ↔ SerdeJson.Strict lib.float value d ∧ ∃ p, descend (split path) d = some p
        ∧ Tells lib.float p (Json.str expected)
  := by
  rw [checkValue_jsonPath_iff]
  constructor
  · rintro ⟨d', p, hd', hp, htells⟩
    obtain rfl := Option.some.inj (hd.symm.trans (parse_textDecode_of_strict hd'))
    exact ⟨hd', p, hp, htells⟩
  · rintro ⟨hstrict, p, hp, htells⟩
    exact ⟨d, p, hstrict, hp, htells⟩

/-- **The watcher lets pass what the contract accepts**, unless the value, the path and the
expected text are of the kinds on which they differ. -/
theorem checkCondition_iff_checkValue (lib : Libraries) (path expected : String) (value : Binary) :
  (checkCondition (SubscriptionCondition.toWire (.jsonPathEquals path expected)) value = true
      ↔ checkValue lib (.jsonPathEquals path expected) value = .ok ())
    ↔ ¬ Differ lib value (split path) (Json.str expected)
  := by
  rw [checkCondition_jsonPath_iff]
  cases hd : Json.parse (Js.textDecode value) with
  | none =>
      have hcontract : checkValue lib (.jsonPathEquals path expected) value ≠ .ok () := by
        intro h
        obtain ⟨d, -, hstrict, -⟩ := checkValue_jsonPath_iff.mp h
        rw [parse_textDecode_of_strict hstrict] at hd
        contradiction
      simp [hcontract, not_differ_of_parse hd]
  | some d =>
      rw [checkValue_of_parse hd]
      simp only [Option.some_inj, exists_eq_left']
      by_cases hnone : SerdeJson.Strict lib.float value d → descend (split path) d = none
      · have hcontract : ¬ (SerdeJson.Strict lib.float value d ∧ ∃ p,
            descend (split path) d = some p ∧ Tells lib.float p (Json.str expected)) := by
          rintro ⟨hstrict, p, hp, -⟩
          rw [hnone hstrict] at hp
          contradiction
        rw [differ_of_parse hd hnone]
        simp [hcontract]
      · obtain ⟨hstrict, hne⟩ := Classical.not_imp.mp hnone
        obtain ⟨p, hp⟩ := Option.ne_none_iff_exists'.mp hne
        obtain ⟨-, -, -, -, hlegible⟩ := id hstrict
        rw [differ_of_descend hstrict hp, ← not_alike_iff (legible_of_descend hlegible hp), not_not,
          finds_of_descend hp]
        simp [hstrict, hp]

/-- For a value and a path the two agree on every text exactly when the value is not a document, or
nothing is found at the path, or a part that is written alike. -/
theorem agreeable_iff (lib : Libraries) (value : Binary) (names : List Json.Str) :
  (∀ expected : String, ¬ Differ lib value names (Json.str expected)) ↔ Agreeable lib value names
  := by
  constructor
  · intro h
    cases hd : Json.parse (Js.textDecode value) with
    | none => exact .text hd
    | some d =>
        by_cases hnone : SerdeJson.Strict lib.float value d → descend names d = none
        · simp only [differ_of_parse hd hnone] at h
          exact .nowhere hd hnone h
        · obtain ⟨hstrict, hne⟩ := Classical.not_imp.mp hnone
          obtain ⟨p, hp⟩ := Option.ne_none_iff_exists'.mp hne
          obtain ⟨-, -, -, -, hlegible⟩ := id hstrict
          obtain ⟨w, hw⟩ := SerdeJson.exists_ofDoc_iff.mpr (legible_of_descend hlegible hp)
          apply Agreeable.plain hstrict hp
          by_contra hplain
          apply h (String.ofList (plainText w))
          apply (differ_of_descend hstrict hp).mpr
          use hplain
          right
          rw [tells_iff hw, Json.str, String.toList_ofList]
  · intro h expected
    cases h with
    | text hd => apply not_differ_of_parse hd
    | nowhere hd hnone hnot =>
        rw [differ_of_parse hd hnone]
        apply hnot
    | plain hstrict hp hplain =>
        rw [differ_of_descend hstrict hp]
        rintro ⟨hnot, -⟩
        apply hnot hplain

end Agreement

end Watcher
