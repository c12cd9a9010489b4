import InterchainEvents.Shared.Types
import Mathlib.Data.Int.Notation

/-!
# What a node of a remote chain answers

The answers to queries with a proof, as they travel in JSON: keys, values and proofs are in
base64, heights are decimal.
-/

namespace Rpc

open Shared

/-- A step of a proof as it travels: its key and its data are in base64. -/
structure RawProofOp where
  type : String
  key : String
  data : String

/-- The answer to a query. There is no value where there is no entry, and no proof then either: they
are `null`. -/
structure QueryResponse where
  key : String
  value : Option String
  height : String
  proofOps : Option (List RawProofOp)

/-- A step of a proof, read. -/
structure ProofOp where
  type : String
  data : Binary

/-- A node: what it answers to a query, given the path and the data of the query, and the hash of
the application in the header of a block, given the height and the number of the attempt. A block
that is not there yet has none. -/
structure Node where
  abciQuery : (path data : String) → QueryResponse
  appHash : (height : ℤ) → (attempt : ℕ) → Option String

end Rpc
