import InterchainEvents.Shared.Types
import InterchainEvents.Text.Base64

/-!
# Conditions as they travel

In a message or an answer of the contract a condition is JSON: its bytes are in base64 and its
encoding is a word. `SubscriptionCondition.ofWire` is the contract's reading of it, and undoes
the writing (`SubscriptionCondition.ofWire_toWire`).
-/

namespace Shared

/-- A condition in a message. -/
inductive WireCondition where
  | exists
  | equals (expected : String)
  | greaterThan (threshold encoding : String)
  | lessThan (threshold encoding : String)
  | jsonPathEquals (path expected : String)
  deriving DecidableEq

/-- The bytes of a text. -/
def utf8 (s : String) : Binary :=
  Utf8.encode s.toList

/-- Bytes as they are written. -/
def toBase64 (bytes : Binary) : String :=
  String.ofList (Base64.encode bytes)

/-- The bytes that were written. -/
def ofBase64 (s : String) : Option Binary :=
  Base64.decode s.toList

/-- The word for an encoding. -/
def ValueEncoding.toWire : ValueEncoding → String
  | .bytes => "bytes"
  | .string => "string"
  | .numeric => "numeric"

/-- The encoding a word stands for. -/
def ValueEncoding.ofWire (s : String) : Option ValueEncoding :=
  if s = "bytes" then some .bytes
  else if s = "string" then some .string
  else if s = "numeric" then some .numeric
  else none

/-- A condition as it is written. -/
def SubscriptionCondition.toWire : SubscriptionCondition → WireCondition
  | .exists => .exists
  | .equals expected => .equals (toBase64 expected)
  | .greaterThan threshold encoding => .greaterThan (toBase64 threshold) encoding.toWire
  | .lessThan threshold encoding => .lessThan (toBase64 threshold) encoding.toWire
  | .jsonPathEquals path expected => .jsonPathEquals path expected

/-- The condition that was written. -/
def SubscriptionCondition.ofWire : WireCondition → Option SubscriptionCondition
  | .exists => some .exists
  | .equals expected => (ofBase64 expected).map .equals
  | .greaterThan threshold encoding => do
      some (.greaterThan (← ofBase64 threshold) (← ValueEncoding.ofWire encoding))
  | .lessThan threshold encoding => do
      some (.lessThan (← ofBase64 threshold) (← ValueEncoding.ofWire encoding))
  | .jsonPathEquals path expected => some (.jsonPathEquals path expected)

@[simp]
theorem toList_toBase64 (bytes : Binary) :
  (toBase64 bytes).toList = Base64.encode bytes
  := String.toList_ofList

@[simp]
theorem ofBase64_toBase64 (bytes : Binary) :
  ofBase64 (toBase64 bytes) = some bytes
  := by
  rw [ofBase64, toList_toBase64, Base64.decode_encode]

@[simp]
theorem ValueEncoding.ofWire_toWire (encoding : ValueEncoding) :
  ofWire encoding.toWire = some encoding
  := by
  cases encoding <;> rfl

/-- The contract reads the condition that was written. -/
theorem SubscriptionCondition.ofWire_toWire (condition : SubscriptionCondition) :
  ofWire condition.toWire = some condition
  := by
  cases condition <;> simp [toWire, ofWire]

end Shared
