import InterchainEvents.Explorer.Form
import InterchainEvents.Hub.Invariant
import InterchainEvents.Watcher.JsonPath

/-!
# JSON paths in the watcher, the form and the contract

Besides the watcher, the subscribe form walks down JSON paths: it previews the text that its
current value has at the path typed so far. It reads the value as Latin-1, so what it shows may be
a text the contract does not see there. `Foreseen` says for which values and paths it shows nothing
else than what the contract accepts (`foreseen_iff`). With what is known of the watcher this settles
when all three agree (`jsonPath_agreement`).
-/

namespace Explorer

open Shared Hub Watcher

/-- The bytes of a value and a path for which the form shows only a text that the contract accepts,
or none. -/
inductive Foreseen (lib : Libraries) (path : String) (value : Binary) : Prop
  /-- No path is typed. -/
  | untyped : path = "" → Foreseen lib path value
  /-- The Latin-1 reading of the value is not a document. -/
  | unread : Json.parse (Utf8.latin1 value) = none → Foreseen lib path value
  /-- In this reading there is no text at the path. -/
  | nowhere {d : Json.Doc} : Json.parse (Utf8.latin1 value) = some d →
      (∀ t : String, ¬ Js.Finds (split path) d (Json.str t)) → Foreseen lib path value
  /-- The path goes from member to member of what is strictly a document, to a string, a boolean,
  `null` or a number with one decimal, and the Latin-1 reading has its text there. -/
  | plain {d d' p : Json.Doc} {t : Json.Str} : SerdeJson.Strict lib.float value d →
      descend (split path) d = some p → Plain lib.float p → Js.Spells p t →
      Json.parse (Utf8.latin1 value) = some d' → Js.Finds (split path) d' t →
      Foreseen lib path value
  /-- It goes to an array, an object or a number with two decimals, and the Latin-1 reading, which
  may have other names, has the contract's text of it there. -/
  | compact {d d' p : Json.Doc} {t : Json.Str} : SerdeJson.Strict lib.float value d →
      descend (split path) d = some p → ¬ Plain lib.float p → Tells lib.float p t →
      Json.parse (Utf8.latin1 value) = some d' → Js.Finds (split path) d' t →
      Foreseen lib path value

variable {lib : Libraries} {path shown : String} {value : Binary}

/-- What the form shows of a value that came in base64 is found in the Latin-1 reading of the
value. -/
theorem jsonPathPreview_iff :
  jsonPathPreview path (decodedValue (toBase64 value)) = some (Json.str shown)
    ↔ path ≠ "" ∧ textAt path (Utf8.latin1 value) = some (Json.str shown)
  := by
  rw [decodedValue, toList_toBase64, Js.atob_encode, Option.getD_some, jsonPathPreview]
  by_cases hpath : path = ""
  · simp [hpath]
  · by_cases hvalue : Utf8.latin1 value = []
    · -- the empty text is not a document
      simp [hvalue, textAt, Js.parseJson, Json.parse, Json.value]
    · simp [hpath, hvalue]

/-- The text of a part that is written alike is the contract's. -/
theorem tells_of_plain {d p : Json.Doc} {t : Json.Str}
    (hstrict : SerdeJson.Strict lib.float value d) (hp : descend (split path) d = some p)
    (hplain : Plain lib.float p) :
  Js.Spells p t ↔ Tells lib.float p t
  := by
  obtain ⟨-, -, -, -, hlegible⟩ := id hstrict
  exact (plain_iff_forall (legible_of_descend hlegible hp)).mp hplain t

/-- The form shows only what the contract accepts, exactly for these values and paths. -/
theorem foreseen_iff :
  (∀ shown, jsonPathPreview path (decodedValue (toBase64 value)) = some (Json.str shown) →
      checkValue lib (.jsonPathEquals path shown) value = .ok ())
    ↔ Foreseen lib path value
  := by
  simp only [jsonPathPreview_iff, checkValue_jsonPath_iff]
  constructor
  · intro h
    by_cases hpath : path = ""
    · exact .untyped hpath
    cases hd' : Json.parse (Utf8.latin1 value) with
    | none => exact .unread hd'
    | some d' =>
        by_cases hfound : ∃ t : String, Js.Finds (split path) d' (Json.str t)
        case neg => exact .nowhere hd' (not_exists.mp hfound)
        obtain ⟨t, hfinds⟩ := hfound
        obtain ⟨d, p, hstrict, hp, htells⟩ :=
          h t ⟨hpath, textAt_eq_some_iff.mpr ⟨d', hd', hfinds⟩⟩
        by_cases hplain : Plain lib.float p
        · have hspells := (tells_of_plain hstrict hp hplain).mpr htells
          exact .plain hstrict hp hplain hspells hd' hfinds
        · exact .compact hstrict hp hplain htells hd' hfinds
  · -- what is found in the Latin-1 reading is the text that the contract accepts
    have haccepts {d d' p : Json.Doc} {t : Json.Str} (hstrict : SerdeJson.Strict lib.float value d)
        (hp : descend (split path) d = some p) (htells : Tells lib.float p t)
        (hd' : Json.parse (Utf8.latin1 value) = some d') (hfinds : Js.Finds (split path) d' t)
        {shown : String} (hshown : textAt path (Utf8.latin1 value) = some (Json.str shown)) :
        ∃ d p, SerdeJson.Strict lib.float value d ∧ descend (split path) d = some p ∧
          Tells lib.float p (Json.str shown) := by
      have htext := textAt_eq_some_iff.mpr ⟨d', hd', hfinds⟩
      obtain rfl := Option.some.inj (htext.symm.trans hshown)
      exact ⟨d, p, hstrict, hp, htells⟩
    rintro hforeseen shown ⟨hpath, hshown⟩
    cases hforeseen with
    | untyped hempty => exact absurd hempty hpath
    | unread hd' =>
        obtain ⟨d', hsome, -⟩ := textAt_eq_some_iff.mp hshown
        rw [hd'] at hsome
        contradiction
    | nowhere hd' hnot =>
        obtain ⟨d', hsome, hfinds⟩ := textAt_eq_some_iff.mp hshown
        obtain rfl := Option.some.inj (hd'.symm.trans hsome)
        exact absurd hfinds (hnot shown)
    | plain hstrict hp hplain hspells hd' hfinds =>
        have htells := (tells_of_plain hstrict hp hplain).mp hspells
        exact haccepts hstrict hp htells hd' hfinds hshown
    | compact hstrict hp _ htells hd' hfinds => exact haccepts hstrict hp htells hd' hfinds hshown

/-- The form reads a value in ASCII as the watcher does, so it shows what the contract accepts where
watcher and contract agree. -/
theorem foreseen_of_isAscii (hvalue : Utf8.IsAscii value)
    (hagreeable : Agreeable lib value (split path)) :
  Foreseen lib path value
  := by
  have hdecode : Js.textDecode value = Utf8.latin1 value := by
    apply Js.textDecode_eq_latin1_iff.mpr
    left
    apply Utf8.eq_encode_latin1_iff.mpr hvalue
  apply foreseen_iff.mp
  intro shown hshown
  obtain ⟨-, htext⟩ := jsonPathPreview_iff.mp hshown
  rw [← hdecode, textAt_eq_some_iff, ← checkCondition_jsonPath_iff] at htext
  apply ((checkCondition_iff_checkValue lib path shown value).mpr _).mp htext
  apply (agreeable_iff lib value (split path)).mpr hagreeable

/-- A document with the owners of an account in an array. -/
def owners : Binary :=
  utf8 "\x7b\"owners\":[\"alice\",\"bob\"]\x7d"

theorem owners_submitted :
  checkCondition (SubscriptionCondition.toWire (.jsonPathEquals "owners.0" "alice")) owners = true
  := by
  decide +kernel

theorem owners_rejected :
  checkValue Libraries.sample (.jsonPathEquals "owners.0" "alice") owners ≠ .ok ()
  := by
  intro h
  have hnone : (checkValue Libraries.sample (.jsonPathEquals "owners.0" "alice") owners).toOption
      = none := by decide +kernel
  rw [h] at hnone
  cases hnone

end Explorer
