import Mathlib.Data.Nat.Notation

/-!
# The types the contracts share

Subscriptions, their conditions and the states of their lifecycle. Machine integers are
natural numbers here; where the width of one matters the contract says so.
-/

namespace Shared

/-- Raw bytes, written in base64 where they travel as JSON. -/
abbrev Binary : Type := List UInt8

/-- A height on a remote chain. -/
structure Height where
  revisionNumber : ℕ
  revisionHeight : ℕ
  deriving DecidableEq

/-- How raw bytes are read for a comparison. -/
inductive ValueEncoding where
  /-- The bytes themselves, in lexicographic order. -/
  | bytes
  /-- A text in UTF-8, in alphabetical order. -/
  | string
  /-- The decimal of a number below `2 ^ 128`. -/
  | numeric
  deriving DecidableEq

/-- When a proven value triggers a subscription. -/
inductive SubscriptionCondition where
  | exists
  | equals (expected : Binary)
  | greaterThan (threshold : Binary) (encoding : ValueEncoding)
  | lessThan (threshold : Binary) (encoding : ValueEncoding)
  | jsonPathEquals (path expected : String)
  deriving DecidableEq

/-- The lifecycle of a subscription. -/
inductive SubscriptionStatus where
  | active
  | triggered
  | expired
  /-- The proof was verified but the callback failed. -/
  | failed (error : String)
  deriving DecidableEq

/-- All that is stored of a subscription. -/
structure Subscription where
  id : ℕ
  creator : String
  clientId : String
  keyPath : List String
  watchKey : Binary
  condition : SubscriptionCondition
  callbackContract : String
  callbackMsg : Binary
  status : SubscriptionStatus
  createdAt : ℕ
  expiresAt : Option ℕ
  deriving DecidableEq

/-- What a watcher of a remote chain is told of a subscription. -/
structure WatchInfo where
  subscriptionId : ℕ
  clientId : String
  keyPath : List String
  watchKey : Binary
  condition : SubscriptionCondition
  deriving DecidableEq

end Shared
