import InterchainEvents.Js.Object
import Mathlib.Data.List.Sort

/-!
# Documents written in JavaScript

What the language makes of a parsed document again: the members of an object in the order in which
it enumerates them, and the text that `JSON.stringify` gives.
-/

namespace Js

open Json (Str str)

/-! ### Objects -/

/-- The index that a property name writes, if it writes one. -/
def index? (name : Str) : Option ℕ :=
  let ds := Utf16.text name
  let n := Json.value10 (ds.map Json.digit)
  if ds.all Json.isDigit ∧ name = Utf16.encode (Nat.toDigits 10 n) ∧ n < 2 ^ 32 - 1 then some n
  else none

/-- The properties of an object: of several members with one name the last one counts, in the place
of the first. -/
def properties {α : Type} (members : List (Str × α)) : List (Str × α) :=
  (members.map Prod.fst).eraseDups.filterMap fun name => members.reverse.find? (·.1 = name)

/-- `Object.entries(object)`: indices come first, from the least, and then the others in the order
in which they came up. -/
def entries {α : Type} (members : List (Str × α)) : List (Str × α) :=
  let indices := (properties members).filter fun m => (index? m.1).isSome
  let others := (properties members).filter fun m => (index? m.1).isNone
  indices.insertionSort (fun m m' => (index? m.1).getD 0 ≤ (index? m'.1).getD 0) ++ others

/-! ### Texts -/

/-- The last two hexadecimal digits of a code unit. -/
def hexDigits (n : ℕ) : List Char :=
  [Nat.digitChar (n / 16 % 16), Nat.digitChar (n % 16)]

/-- A code unit that cannot stand in a text by itself. -/
def unicodeEscape (u : UInt16) : Str :=
  Utf16.encode ('\\' :: 'u' :: hexDigits (u.toNat / 256) ++ hexDigits u.toNat)

/-- A code unit between quotes. -/
def escapeUnit (u : UInt16) : Str :=
  if u = 0x22 then str "\\\""
  else if u = 0x5C then str "\\\\"
  else if u = 0x08 then str "\\b"
  else if u = 0x0C then str "\\f"
  else if u = 0x0A then str "\\n"
  else if u = 0x0D then str "\\r"
  else if u = 0x09 then str "\\t"
  else if u.toNat < 0x20 ∨ Utf16.isLead u ∨ Utf16.isTrail u then unicodeEscape u
  else [u]

/-- What stands between the quotes of a string. Only paired surrogates stay as they are. -/
def escaped : Str → Str
  | [] => []
  | [u] => escapeUnit u
  | u :: v :: us =>
      if Utf16.isLead u && Utf16.isTrail v then u :: v :: escaped us
      else escapeUnit u ++ escaped (v :: us)

/-- A string as a text of JSON. -/
def quote (s : Str) : Str :=
  str "\"" ++ escaped s ++ str "\""

/-- Texts with commas between them. -/
def commas (texts : List Str) : Str :=
  (texts.intersperse (str ",")).flatten

/-- A number as a text of JSON. -/
def jsonNumber : Binary64 → Str
  | .finite neg m => Utf16.encode (numberText (.finite neg m))
  | _ => str "null"

mutual

/-- `JSON.stringify(value)` of a parsed document. -/
def stringify : Json.Doc → Str
  | .null => str "null"
  | .bool b => str (toString b)
  | .num l => jsonNumber (literal l)
  | .str s => quote s
  | .arr items => str "[" ++ commas (stringifyItems items) ++ str "]"
  | .obj members =>
      let texts := (entries (stringifyMembers members)).map fun m => quote m.1 ++ str ":" ++ m.2
      str "\x7b" ++ commas texts ++ str "\x7d"

/-- The texts of the items of an array. -/
def stringifyItems : List Json.Doc → List Str
  | [] => []
  | d :: ds => stringify d :: stringifyItems ds

/-- The texts of the members of an object, with their names. -/
def stringifyMembers : List (Str × Json.Doc) → List (Str × Str)
  | [] => []
  | (name, d) :: ms => (name, stringify d) :: stringifyMembers ms

end

end Js
