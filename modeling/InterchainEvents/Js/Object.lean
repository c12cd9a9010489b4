import InterchainEvents.Js.Number

/-!
# Parsed documents in JavaScript

What `JSON.parse` gives is a value of the language: its objects and arrays have, besides their
own members and items, the properties they inherit. `Value.get?` is the property of a value of
a given name, and `Value.text` the value as a text, if `String` does not throw on it.

* `Value.get?_of_member`: a member of an object is its property.
-/

namespace Js

open Json (Str str)

/-- A value that can be reached from a parsed document: a part of it, the length of an array, or
what arrays and objects inherit. -/
inductive Value where
  | doc (d : Json.Doc)
  | length (n : ℕ)
  | function (name : Str)
  | objectPrototype
  | arrayPrototype

/-- `JSON.parse(text)`, which throws on a text that is not a document. -/
def parseJson (cs : List Char) : Option Value :=
  (Json.parse cs).map .doc

/-! ### Properties -/

/-- The methods of `Object.prototype`. -/
def objectMethods : List Str :=
  ["__defineGetter__", "__defineSetter__", "hasOwnProperty", "__lookupGetter__",
    "__lookupSetter__", "isPrototypeOf", "propertyIsEnumerable", "toString", "valueOf",
    "toLocaleString"].map str

/-- The methods of `Array.prototype`. -/
def arrayMethods : List Str :=
  ["at", "concat", "copyWithin", "fill", "find", "findIndex", "findLast", "findLastIndex",
    "lastIndexOf", "pop", "push", "reverse", "shift", "unshift", "slice", "sort", "splice",
    "includes", "indexOf", "join", "keys", "entries", "values", "forEach", "filter", "flat",
    "flatMap", "map", "every", "some", "reduce", "reduceRight", "toReversed", "toSorted",
    "toSpliced", "toLocaleString", "toString", "with"].map str

/-- The property that a value with the prototype `proto` inherits from `Object.prototype`. -/
def fromObject (proto : Value) (name : Str) : Option Value :=
  if name = str "__proto__" then some proto
  else if name = str "constructor" then some (.function (str "Object"))
  else if name ∈ objectMethods then some (.function name)
  else none

/-- The property that a value with the prototype `proto` inherits from `Array.prototype`. -/
def fromArray (proto : Value) (name : Str) : Option Value :=
  if name = str "constructor" then some (.function (str "Array"))
  else if name ∈ arrayMethods then some (.function name)
  else fromObject proto name

/-- The item of an array whose index is written as the name. -/
def item (name : Str) (items : List Json.Doc) : Option Json.Doc :=
  (items.zipIdx.find? fun e => Utf16.encode (Nat.toDigits 10 e.2) = name).map Prod.fst

/-- The property of a value, if it is an object that has it. -/
def Value.get? (name : Str) : Value → Option Value
  | .doc (.obj members) =>
      match Json.member name members with
      | some d => some (.doc d)
      | none => fromObject .objectPrototype name
  | .doc (.arr items) =>
      match item name items with
      | some d => some (.doc d)
      | none =>
          if name = str "length" then some (.length items.length)
          else fromArray .arrayPrototype name
  | .objectPrototype => fromObject (.doc .null) name
  | .arrayPrototype =>
      if name = str "length" then some (.length 0) else fromArray .objectPrototype name
  | _ => none

/-- A member of a document is its property. -/
theorem Value.get?_of_member {name : Str} {d d' : Json.Doc} (h : d.get? name = some d') :
  (Value.doc d).get? name = some (.doc d')
  := by
  cases d with
  | obj members =>
      rw [Json.Doc.get?] at h
      rw [Value.get?, h]
  | _ => contradiction

/-- One value is reached from another by going from property to property. -/
inductive Value.Leads : List Str → Value → Value → Prop
  | here {v} : Leads [] v v
  | property {name names u v w} : u.get? name = some v → Leads names v w → Leads (name :: names) u w

/-! ### Texts -/

/-- Whether a document is `null`. -/
def isNull : Json.Doc → Bool
  | .null => true
  | _ => false

mutual

/-- `String(value)` of a parsed document, which throws on an object that has a member
`toString`. -/
def docText : Json.Doc → Option Str
  | .null => some (str "null")
  | .bool b => some (str (toString b))
  | .num l => some (Utf16.encode (numberText (literal l)))
  | .str s => some s
  | .arr items => itemsText items
  | .obj members =>
      if (Json.member (str "toString") members).isSome then none else some (str "[object Object]")

/-- The texts of the items of an array with commas between them, `null` giving none. -/
def itemsText : List Json.Doc → Option Str
  | [] => some []
  | [d] => if isNull d then some [] else docText d
  | d :: ds =>
      (if isNull d then some [] else docText d).bind fun s =>
        (itemsText ds).map fun rest => s ++ str "," ++ rest

end

/-- `String(value)` -/
def Value.text : Value → Option Str
  | .doc d => docText d
  | .length n => some (Utf16.encode (Nat.toDigits 10 n))
  | .function name => some (str "function " ++ name ++ str "() { [native code] }")
  | .objectPrototype => some (str "[object Object]")
  | .arrayPrototype => some []

end Js
