import InterchainEvents.Js.Object
import InterchainEvents.Shared.Wire

/-!
# The watcher's check of a condition

Before it submits a proof, the watcher checks the condition on the value it has fetched: this is
`checkCondition`. It reads the value as a text, whatever the condition.
-/

namespace Watcher

open Shared

/-- The value at the end of a path in a parsed document. -/
def walk : List Json.Str → Js.Value → Option Js.Value
  | [], current => some current
  | segment :: segments, current => (current.get? segment).bind (walk segments)

theorem walk_eq_some_iff {segments : List Json.Str} {current v : Js.Value} :
  walk segments current = some v ↔ Js.Value.Leads segments current v
  := by
  induction segments generalizing current with
  | nil =>
      rw [walk, Option.some.injEq]
      constructor
      · rintro rfl
        apply Js.Value.Leads.here
      · rintro ⟨⟩
        rfl
  | cons segment segments ih =>
      rw [walk, Option.bind_eq_some_iff]
      constructor
      · rintro ⟨next, hnext, h⟩
        exact .property hnext (ih.mp h)
      · rintro (_ | ⟨hnext, h⟩)
        exact ⟨_, hnext, ih.mpr h⟩

/-- The segments of a path. -/
def split (path : String) : List Json.Str :=
  (Json.str path).splitOn (UInt16.ofNat '.'.toNat)

/-- The text of what stands at the end of a path in the document that a text is. -/
def textAt (path : String) (valueStr : List Char) : Option Json.Str :=
  (Js.parseJson valueStr).bind fun json =>
    (walk (split path) json).bind Js.Value.text

/-- The number at the beginning of a text, quotes not counting. -/
def toNumber (s : List Char) : Binary64 :=
  Js.parseFloat (Js.removeQuotes s)

/-- Whether the condition of a subscription holds of a value. -/
def checkCondition (condition : WireCondition) (valueBytes : Binary) : Bool :=
  let valueStr := Js.textDecode valueBytes
  match condition with
  | .exists => true
  | .jsonPathEquals path expected =>
      match textAt path valueStr with
      | some s => decide (s = Json.str expected)
      | none => false
  | .equals expected =>
      match Js.atob expected.toList with
      | some expectedStr => decide (valueStr = expectedStr)
      | none => decide (valueStr = expected.toList)
  | .greaterThan threshold _ =>
      match Js.atob threshold.toList with
      | some t => (toNumber t).lt (toNumber valueStr)
      | none => false
  | .lessThan threshold _ =>
      match Js.atob threshold.toList with
      | some t => (toNumber valueStr).lt (toNumber t)
      | none => false

end Watcher
