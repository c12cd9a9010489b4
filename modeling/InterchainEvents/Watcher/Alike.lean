import InterchainEvents.Hub.Semantics
import InterchainEvents.Js.Found
import InterchainEvents.Js.Shortest
import InterchainEvents.Rust.JsonText
import InterchainEvents.Rust.Strict

/-!
# Two ways of writing a part of a document

The watcher writes a part of a document as JavaScript does (`Js.Spells`), the contract as
`serde_json` does, strings without their quotes (`Tells`). Strings, booleans and `null` are written
alike, numbers when both find the same decimal for them, as they do for integers below `2 ^ 53`
(`sameDecimal_of_lt`). Arrays and objects never are (`plain_iff`).
-/

namespace Watcher

open Json (Str str)

variable {float : Json.NumLit → Option (List Char)}

/-! ### The contract's texts -/

/-- The contract writes a part of a document as a text: an array or an object as its compact text,
the members in the order of their names. -/
inductive Tells (float : Json.NumLit → Option (List Char)) : Json.Doc → Str → Prop
  | null : Tells float .null (str "null")
  | bool (b : Bool) : Tells float (.bool b) (str (toString b))
  | num {l : Json.NumLit} {n : SerdeJson.Number} : SerdeJson.number float l = some n →
      Tells float (.num l) (Utf16.encode n.text)
  | string {s : Str} : Utf16.Valid s → Tells float (.str s) s
  | array {items : List Json.Doc} {vs : List SerdeJson.Value} :
      SerdeJson.ofItems float items = some vs →
      Tells float (.arr items) (Utf16.encode (SerdeJson.Value.array vs).render)
  | object {members : List (Str × Json.Doc)} {ms : List (List Char × SerdeJson.Value)} :
      SerdeJson.ofMembers float [] members = some ms →
      Tells float (.obj members) (Utf16.encode (SerdeJson.Value.object ms).render)

/-- The text that the contract compares is the one it writes a part as. -/
theorem tells_iff {d : Json.Doc} {w : SerdeJson.Value} (hw : SerdeJson.ofDoc float d = some w)
    {t : Str} :
  Tells float d t ↔ Utf16.encode (Hub.plainText w) = t
  := by
  cases d with
  | null =>
      obtain rfl := Option.some.inj hw
      constructor
      · rintro ⟨⟩
        rfl
      · rintro rfl
        exact .null
  | bool b =>
      obtain rfl := Option.some.inj hw
      constructor
      · rintro ⟨⟩
        rfl
      · rintro rfl
        exact .bool b
  | num l =>
      obtain ⟨n, hn, rfl⟩ := Option.map_eq_some_iff.mp hw
      constructor
      · rintro (_ | _ | hn')
        rw [hn] at hn'
        cases hn'
        rfl
      · rintro rfl
        exact .num hn
  | str s =>
      obtain ⟨cs, hcs, rfl⟩ := Option.map_eq_some_iff.mp hw
      obtain rfl := SerdeJson.string_eq_some_iff.mp hcs
      constructor
      · rintro ⟨⟩
        rfl
      · rintro rfl
        exact .string (Utf16.valid_encode cs)
  | arr items =>
      obtain ⟨vs, hvs, rfl⟩ := Option.map_eq_some_iff.mp hw
      constructor
      · rintro (_ | _ | _ | _ | hvs')
        rw [hvs] at hvs'
        cases hvs'
        rfl
      · rintro rfl
        exact .array hvs
  | obj members =>
      obtain ⟨ms, hms, rfl⟩ := Option.map_eq_some_iff.mp hw
      constructor
      · rintro (_ | _ | _ | _ | _ | hms')
        rw [hms] at hms'
        cases hms'
        rfl
      · rintro rfl
        exact .object hms

/-! ### Numbers -/

/-- JavaScript and `serde_json` write the number of a literal with the same decimal. -/
def SameDecimal (float : Json.NumLit → Option (List Char)) (l : Json.NumLit) : Prop :=
  ∃ n, SerdeJson.number float l = some n ∧ n.text = Js.numberText (Js.literal l)

/-- An integer below `2 ^ 53` that is not negative zero is written with the same decimal. -/
theorem sameDecimal_of_lt {l : Json.NumLit} (hfrac : l.frac = none) (hexp : l.exp = none)
    (hlt : Json.value10 l.int < 2 ^ 53) (hzero : l.neg = true → Json.value10 l.int ≠ 0) :
  SameDecimal float l
  := by
  obtain ⟨neg, int, frac, exp⟩ := l
  dsimp only at hfrac hexp hlt hzero
  subst hfrac hexp
  have hliteral : Js.literal ⟨neg, int, none, none⟩
      = .finite neg (Json.value10 int * Binary64.one) := by
    simp only [Js.literal, Option.getD_none, List.append_nil, List.length_nil, Nat.cast_zero,
      sub_zero]
    rw [Js.decimal_zero, Binary64.round_of_le (by decide) hlt.le, Binary64.roundScaled_of_le hlt.le]
  rw [SameDecimal, hliteral]
  cases neg with
  | false =>
      refine ⟨.posInt (Json.value10 int), ?_, ?_⟩
      · rw [SerdeJson.number]
        exact if_pos ⟨rfl, rfl, rfl, hlt.trans (by decide)⟩
      · rcases Nat.eq_zero_or_pos (Json.value10 int) with hnone | hpos
        · rw [hnone, Nat.zero_mul]
          rfl
        · rw [Js.numberText_integer false hpos hlt]
          rfl
  | true =>
      have hpos := Nat.pos_of_ne_zero (hzero rfl)
      refine ⟨.negInt (Json.value10 int), ?_, ?_⟩
      · rw [SerdeJson.number]
        dsimp only
        rw [if_neg (by simp)]
        exact if_pos ⟨rfl, rfl, rfl, hpos, hlt.le.trans (by decide)⟩
      · rw [Js.numberText_integer true hpos hlt]
        rfl

/-! ### Quotes -/

/-- How many quotes are in a text. -/
def quotes (t : Str) : ℕ := t.count 0x22

theorem quotes_append (s t : Str) :
  quotes (s ++ t) = quotes s + quotes t
  := List.count_append

theorem quotes_encodeChar (c : Char) :
  quotes (Utf16.encodeChar c) = if c = '"' then 1 else 0
  := by
  split_ifs with h
  · rw [h]
    rfl
  · apply List.count_eq_zero.mpr
    apply Utf16.not_mem_encodeChar (c := '"') (by decide) (Ne.symm h)

theorem quotes_encode (cs : List Char) :
  quotes (Utf16.encode cs) = cs.count '"'
  := by
  induction cs with
  | nil => rfl
  | cons c cs ih =>
      rw [Utf16.encode_cons, quotes_append, quotes_encodeChar, ih, List.count_cons, Nat.add_comm]
      simp

theorem quotes_numberText (x : Binary64) :
  quotes (Utf16.encode (Js.numberText x)) = 0
  := by
  rw [quotes_encode]
  apply List.count_eq_zero.mpr
  intro h
  rcases Js.isNumeric_of_mem_numberText h with hdigit | hmem
  · cases hdigit
  · revert hmem
    decide

/-- A string is written with its quotes, and two more. -/
theorem lt_quotes_quote (cs : List Char) :
  quotes (Utf16.encode cs) < (SerdeJson.quote cs).count '"'
  := by
  have hescape (c : Char) : [c].count '"' ≤ (SerdeJson.escape c).count '"' := by
    rw [SerdeJson.escape]
    split_ifs with h
    · rw [h]
      decide
    all_goals
      simp [h]
  have hflat : cs.count '"' ≤ (cs.flatMap SerdeJson.escape).count '"' := by
    induction cs with
    | nil => exact Nat.le_refl _
    | cons c cs ih =>
        rw [← List.singleton_append, List.count_append, List.singleton_append, List.flatMap_cons,
          List.count_append]
        exact Nat.add_le_add (hescape c) ih
  rw [quotes_encode, SerdeJson.quote, List.count_append, List.count_cons]
  simp
  omega

/-- The text of an array begins with that of its first item, and goes on with a comma if there are
more. -/
theorem exists_of_itemsText_cons {d : Json.Doc} {ds : List Json.Doc} {t : Str}
    (h : Js.itemsText (d :: ds) = some t) :
  ∃ s rest, (if Js.isNull d then some [] else Js.docText d) = some s ∧ t = s ++ rest ∧
    (rest = [] ∨ ∃ t', Js.itemsText ds = some t' ∧ rest = str "," ++ t')
  := by
  cases ds with
  | nil => exact ⟨t, [], h, (List.append_nil t).symm, .inl rfl⟩
  | cons d' ds =>
      rw [Js.itemsText] at h
      · obtain ⟨s, hs, h⟩ := Option.bind_eq_some_iff.mp h
        obtain ⟨t', ht', rfl⟩ := Option.map_eq_some_iff.mp h
        exact ⟨s, str "," ++ t', hs, List.append_assoc _ _ _, .inr ⟨t', ht', rfl⟩⟩
      · simp

theorem count_renderItems_cons (v : SerdeJson.Value) (vs : List SerdeJson.Value) :
  (SerdeJson.renderItems (v :: vs)).count '"'
    = v.render.count '"' + (SerdeJson.renderItems vs).count '"'
  := by
  cases vs with
  | nil => rfl
  | cons v' vs =>
      rw [SerdeJson.renderItems]
      · simp
      · simp

theorem exists_renderItems_append (v : SerdeJson.Value) (vs : List SerdeJson.Value) :
  ∃ tail, SerdeJson.renderItems (v :: vs) = v.render ++ tail
  := by
  cases vs with
  | nil => exact ⟨[], (List.append_nil _).symm⟩
  | cons v' vs =>
      refine ⟨',' :: SerdeJson.renderItems (v' :: vs), ?_⟩
      rw [SerdeJson.renderItems]
      simp

mutual

/-- JavaScript writes no more quotes than `serde_json`. -/
theorem quotes_docText_le :
  ∀ {d : Json.Doc} {t : Str} {w : SerdeJson.Value}, Js.docText d = some t →
    SerdeJson.ofDoc float d = some w → quotes t ≤ w.render.count '"'
  | .null, t, w, ht, hw => by
      obtain rfl := Option.some.inj ht
      apply Nat.zero_le
  | .bool b, t, w, ht, hw => by
      obtain rfl := Option.some.inj ht
      cases b <;> apply Nat.zero_le
  | .num l, t, w, ht, hw => by
      obtain rfl := Option.some.inj ht
      rw [quotes_numberText]
      apply Nat.zero_le
  | .str s, t, w, ht, hw => by
      obtain rfl := Option.some.inj ht
      obtain ⟨cs, hcs, rfl⟩ := Option.map_eq_some_iff.mp hw
      obtain rfl := SerdeJson.string_eq_some_iff.mp hcs
      apply (lt_quotes_quote cs).le
  | .arr items, t, w, ht, hw => by
      obtain ⟨vs, hvs, rfl⟩ := Option.map_eq_some_iff.mp hw
      have := quotes_itemsText_le ht hvs
      simp only [SerdeJson.Value.render, List.cons_append, List.count_cons, List.count_append]
      omega
  | .obj members, t, w, ht, hw => by
      obtain ⟨-, ht⟩ := Option.ite_none_left_eq_some.mp ht
      obtain rfl := Option.some.inj ht
      apply Nat.zero_le

theorem quotes_itemsText_le :
  ∀ {ds : List Json.Doc} {t : Str} {vs : List SerdeJson.Value}, Js.itemsText ds = some t →
    SerdeJson.ofItems float ds = some vs → quotes t ≤ (SerdeJson.renderItems vs).count '"'
  | [], t, vs, ht, hvs => by
      obtain rfl := Option.some.inj ht
      apply Nat.zero_le
  | d :: ds, t, vs, ht, hvs => by
      obtain ⟨s, rest, hs, rfl, hrest⟩ := exists_of_itemsText_cons ht
      obtain ⟨v, hv, hothers⟩ := Option.bind_eq_some_iff.mp hvs
      obtain ⟨vs', hvs', rfl⟩ := Option.map_eq_some_iff.mp hothers
      have hfirst : quotes s ≤ v.render.count '"' := by
        split at hs
        · obtain rfl := Option.some.inj hs
          apply Nat.zero_le
        · apply quotes_docText_le hs hv
      have hquotes : quotes rest ≤ (SerdeJson.renderItems vs').count '"' := by
        rcases hrest with rfl | ⟨t', ht', rfl⟩
        · apply Nat.zero_le
        · rw [quotes_append, show quotes (str ",") = 0 from rfl, Nat.zero_add]
          apply quotes_itemsText_le ht' hvs'
      rw [quotes_append, count_renderItems_cons]
      omega

end

theorem quotes_rest_le {ds : List Json.Doc} {rest : Str} {vs : List SerdeJson.Value}
    (hrest : rest = [] ∨ ∃ t, Js.itemsText ds = some t ∧ rest = str "," ++ t)
    (hvs : SerdeJson.ofItems float ds = some vs) :
  quotes rest ≤ (SerdeJson.renderItems vs).count '"'
  := by
  rcases hrest with rfl | ⟨t, ht, rfl⟩
  · apply Nat.zero_le
  · rw [quotes_append, show quotes (str ",") = 0 from rfl, Nat.zero_add]
    apply quotes_itemsText_le ht hvs

/-! ### Beginnings -/

/-- Where the two texts of a document begin alike, one has more quotes, or the first begins as an
object is written in JavaScript, and the second does not. -/
def BeginApart (t : Str) (cs : List Char) : Prop :=
  quotes t < cs.count '"' ∨ t.head? ≠ some 0x5B ∨
    (∃ us, t = 0x5B :: 0x6F :: us) ∧ ∃ c ds, cs = c :: ds ∧ c ≠ 'o'

theorem head_numberText_ne (x : Binary64) :
  (Utf16.encode (Js.numberText x)).head? ≠ some 0x5B
  := by
  intro h
  have hmem := List.mem_of_mem_head? h
  revert hmem
  apply Utf16.not_mem_encode (c := '[') (by decide)
  intro hbracket
  rcases Js.isNumeric_of_mem_numberText hbracket with hdigit | hmem
  · cases hdigit
  · revert hmem
    decide

mutual

theorem beginApart_docText :
  ∀ {d : Json.Doc} {t : Str} {w : SerdeJson.Value}, Js.docText d = some t →
    SerdeJson.ofDoc float d = some w → BeginApart t w.render
  | .null, t, w, ht, hw => by
      obtain rfl := Option.some.inj ht
      exact .inr (.inl (by decide))
  | .bool b, t, w, ht, hw => by
      obtain rfl := Option.some.inj ht
      cases b <;> exact .inr (.inl (by decide))
  | .num l, t, w, ht, hw => by
      obtain rfl := Option.some.inj ht
      exact .inr (.inl (head_numberText_ne _))
  | .str s, t, w, ht, hw => by
      obtain rfl := Option.some.inj ht
      obtain ⟨cs, hcs, rfl⟩ := Option.map_eq_some_iff.mp hw
      obtain rfl := SerdeJson.string_eq_some_iff.mp hcs
      exact .inl (lt_quotes_quote cs)
  | .arr items, t, w, ht, hw => by
      obtain ⟨vs, hvs, rfl⟩ := Option.map_eq_some_iff.mp hw
      rcases beginApart_itemsText ht hvs with hlt | hhead | ⟨hobject, -⟩
      · left
        simp only [SerdeJson.Value.render, List.cons_append, List.count_cons, List.count_append]
        omega
      · exact .inr (.inl hhead)
      · exact .inr (.inr ⟨hobject, '[', _, rfl, by decide⟩)
  | .obj members, t, w, ht, hw => by
      obtain ⟨-, ht⟩ := Option.ite_none_left_eq_some.mp ht
      obtain rfl := Option.some.inj ht
      obtain ⟨ms, -, rfl⟩ := Option.map_eq_some_iff.mp hw
      exact .inr (.inr ⟨⟨_, rfl⟩, '{', _, rfl, by decide⟩)

theorem beginApart_itemsText :
  ∀ {ds : List Json.Doc} {t : Str} {vs : List SerdeJson.Value}, Js.itemsText ds = some t →
    SerdeJson.ofItems float ds = some vs → BeginApart t (SerdeJson.renderItems vs)
  | [], t, vs, ht, hvs => by
      obtain rfl := Option.some.inj ht
      exact .inr (.inl (by decide))
  | d :: ds, t, vs, ht, hvs => by
      obtain ⟨s, rest, hs, rfl, hrest⟩ := exists_of_itemsText_cons ht
      obtain ⟨v, hv, hothers⟩ := Option.bind_eq_some_iff.mp hvs
      obtain ⟨vs', hvs', rfl⟩ := Option.map_eq_some_iff.mp hothers
      have hcomma : rest.head? ≠ some 0x5B := by
        rcases hrest with rfl | ⟨t', -, rfl⟩
        · decide
        · simp [str, Utf16.encodeChar]
      split at hs
      · obtain rfl := Option.some.inj hs
        exact .inr (.inl hcomma)
      rcases beginApart_docText hs hv with hlt | hhead | ⟨⟨us, rfl⟩, c, cs, hrender, hc⟩
      · left
        have hquotes := quotes_rest_le hrest hvs'
        rw [quotes_append, count_renderItems_cons]
        omega
      · right
        left
        cases s with
        | nil => apply hcomma
        | cons u us => apply hhead
      · right
        right
        obtain ⟨tail, htail⟩ := exists_renderItems_append v vs'
        exact ⟨⟨us ++ rest, rfl⟩, c, cs ++ tail, by rw [htail, hrender, List.cons_append], hc⟩

end

theorem head_encode_ne {c : Char} (hc : c ≠ 'o') {cs : List Char} {us : Str} :
  Utf16.encode (c :: cs) ≠ 0x6F :: us
  := by
  intro h
  have hnot := Utf16.not_mem_encodeChar (c := 'o') (by decide) (Ne.symm hc)
  rw [Utf16.encode_cons] at h
  cases hunits : Utf16.encodeChar c with
  | nil =>
      revert hunits
      rw [Utf16.encodeChar]
      split_ifs <;> simp
  | cons u us' =>
      rw [hunits] at h hnot
      obtain ⟨rfl, -⟩ := List.cons.inj h
      apply hnot
      exact List.mem_cons_self

/-- An array is not written as one text. -/
theorem docText_arr_ne {items : List Json.Doc} {vs : List SerdeJson.Value}
    (hvs : SerdeJson.ofItems float items = some vs) :
  Js.docText (.arr items) ≠ some (Utf16.encode (SerdeJson.Value.array vs).render)
  := by
  intro ht
  rcases beginApart_itemsText ht hvs with hlt | hhead | ⟨⟨us, hus⟩, c, cs, hrender, hc⟩
  · rw [quotes_encode] at hlt
    simp only [SerdeJson.Value.render, List.cons_append, List.count_cons, List.count_append] at hlt
    simp at hlt
  · apply hhead
    rfl
  · rw [SerdeJson.Value.render, hrender] at hus
    apply head_encode_ne hc (List.cons.inj hus).2

/-- An object is not written as one text. -/
theorem docText_obj_ne {members : List (Str × Json.Doc)}
    {ms : List (List Char × SerdeJson.Value)} :
  Js.docText (.obj members) ≠ some (Utf16.encode (SerdeJson.Value.object ms).render)
  := by
  intro h
  obtain ⟨-, h⟩ := Option.ite_none_left_eq_some.mp h
  have hhead := congrArg List.head? (Option.some.inj h)
  revert hhead
  simp [SerdeJson.Value.render, str, Utf16.encodeChar]

/-- A part of a document that is written as one text. -/
inductive Plain (float : Json.NumLit → Option (List Char)) : Json.Doc → Prop
  | null : Plain float .null
  | bool (b : Bool) : Plain float (.bool b)
  | string (s : Str) : Plain float (.str s)
  | num {l : Json.NumLit} : SameDecimal float l → Plain float (.num l)

/-- JavaScript and the contract write a number as the same text exactly when they find the same
decimal for it. -/
theorem tells_numberText_iff {l : Json.NumLit} :
  Tells float (.num l) (Utf16.encode (Js.numberText (Js.literal l))) ↔ SameDecimal float l
  := by
  constructor
  · intro h
    generalize ht : Utf16.encode (Js.numberText (Js.literal l)) = t at h
    obtain _ | _ | hn := h
    exact ⟨_, hn, (Utf16.encode_injective ht).symm⟩
  · rintro ⟨n, hn, htext⟩
    rw [← htext]
    exact .num hn

/-- **What is written alike.** JavaScript and the contract write a legible part as the same text
exactly when it is a string, a boolean, `null` or a number with the same decimal. -/
theorem plain_iff {d : Json.Doc} (hd : SerdeJson.Legible float d) :
  Plain float d ↔ ∃ t, Js.Spells d t ∧ Tells float d t
  := by
  constructor
  · intro h
    cases h with
    | null => exact ⟨_, .null, .null⟩
    | bool b => exact ⟨_, .bool b, .bool b⟩
    | string s =>
        obtain _ | _ | _ | hs := hd
        exact ⟨s, .string s, .string hs⟩
    | num h => exact ⟨_, .num _, tells_numberText_iff.mpr h⟩
  · rintro ⟨t, hspells, htells⟩
    cases htells with
    | null => exact .null
    | bool b => exact .bool b
    | string => exact .string _
    | num hn =>
        generalize ht : Utf16.encode (SerdeJson.Number.text _) = t at hspells
        obtain _ | _ | _ := hspells
        apply Plain.num
        exact ⟨_, hn, Utf16.encode_injective ht⟩
    | array hvs => exact absurd (Js.spells_iff.mpr hspells) (docText_arr_ne hvs)
    | object hms => exact absurd (Js.spells_iff.mpr hspells) docText_obj_ne

/-- A part has at most one text in JavaScript, and a legible part exactly one in the contract. -/
theorem plain_iff_forall {d : Json.Doc} (hd : SerdeJson.Legible float d) :
  Plain float d ↔ ∀ t, Js.Spells d t ↔ Tells float d t
  := by
  obtain ⟨w, hw⟩ := SerdeJson.exists_ofDoc_iff.mpr hd
  rw [plain_iff hd]
  constructor
  · rintro ⟨s, hspells, htells⟩ t
    rw [← Js.spells_iff] at hspells ⊢
    rw [tells_iff hw] at htells ⊢
    rw [hspells, htells, Option.some_inj]
  · intro h
    have htells := (tells_iff hw).mpr rfl
    exact ⟨_, (h _).mpr htells, htells⟩

/-- A text that only one of the two writes a legible part as is one of the two texts of a part that
is not written alike. -/
theorem not_alike_iff {d : Json.Doc} (hd : SerdeJson.Legible float d) {t : Str} :
  ¬ (Js.Spells d t ↔ Tells float d t) ↔ ¬ Plain float d ∧ (Js.Spells d t ∨ Tells float d t)
  := by
  constructor
  · intro h
    constructor
    · intro hplain
      apply h ((plain_iff_forall hd).mp hplain t)
    · tauto
  · rintro ⟨hplain, hor⟩ hiff
    apply hplain
    apply (plain_iff hd).mpr
    use t
    tauto

end Watcher
