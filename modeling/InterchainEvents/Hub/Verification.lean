import InterchainEvents.Shared.Types
import InterchainEvents.Rust.SerdeJson

/-!
# Errors of the hub contract, and its proof verification

`verifyChainedMembership` checks two commitment proofs: one of a key and a value in the tree
of a module, and one of the root of that tree under the name of the module's store. The
decoding of the proofs and the checking of a single one are those of libraries, and are
parameters here.
-/

namespace Hub

open Shared

/-! ### Errors -/

/-- Why the contract refuses. -/
inductive ContractError where
  /-- An error of the storage: a record of that kind was not found. -/
  | std (kind : String)
  | unauthorized
  | subscriptionNotFound (id : ℕ)
  | subscriptionNotActive (id : ℕ)
  | subscriptionExpired (id : ℕ)
  | emptyKeyPath
  | emptyCallbackContract
  | emptyWatchKey
  | keyMismatch
  | valueMismatch
  | thresholdNotMet
  | valueDecodeError (reason : String)
  | proofVerificationFailed (reason : String)
  | protoDecode (reason : String)
  deriving DecidableEq

/-- The text of an error. -/
def ContractError.message : ContractError → String
  | .std kind => kind ++ " not found"
  | .unauthorized => "Unauthorized"
  | .subscriptionNotFound id => "Subscription not found: " ++ toString id
  | .subscriptionNotActive id => "Subscription " ++ toString id ++ " is not active"
  | .subscriptionExpired id => "Subscription " ++ toString id ++ " has expired"
  | .emptyKeyPath => "key_path must have at least 1 element (store name)"
  | .emptyCallbackContract => "callback_contract cannot be empty"
  | .emptyWatchKey => "watch_key cannot be empty"
  | .keyMismatch => "Submitted key does not match subscription watch_key"
  | .valueMismatch => "Proven value does not match expected value"
  | .thresholdNotMet => "Proven value does not meet threshold condition"
  | .valueDecodeError reason => "Cannot decode value for comparison: " ++ reason
  | .proofVerificationFailed reason => "Proof verification failed: " ++ reason
  | .protoDecode reason => "Proto decode error: " ++ reason

/-! ### The libraries -/

/-- The proof specifications of the two levels. -/
inductive ProofSpec where
  | iavl
  | tendermint
  deriving DecidableEq

/-- What the contract uses of its libraries. -/
structure Libraries where
  /-- Commitment proofs, and the existence proofs among them. -/
  CommitmentProof : Type
  ExistenceProof : Type
  /-- The entries of a `MerkleProof` message, or the text of a decoding error. -/
  decodeMerkleProof : Binary → Except String (List Binary)
  /-- A `CommitmentProof` message, or the text of a decoding error. -/
  decodeCommitmentProof : Binary → Except String CommitmentProof
  /-- The existence proof that a commitment proof is, if it is one. -/
  exist : CommitmentProof → Option ExistenceProof
  calculateExistenceRoot : ExistenceProof → Except String Binary
  verifyMembership : CommitmentProof → ProofSpec → (root key value : Binary) → Bool
  /-- The text written for the double that a JSON literal is read as. -/
  float : Json.NumLit → Option (List Char)
  /-- Why some bytes are not read as a JSON value. -/
  jsonError : Binary → String
  /-- What the storage calls the record of a subscription. -/
  kind : ℕ → String

/-! ### Verification -/

variable (lib : Libraries)

/-- The raw bytes of the two commitment proofs of a `MerkleProof` message. -/
def decodeMerkleProof (proofBytes : Binary) : Except ContractError (Binary × Binary) := do
  let proofs ← (lib.decodeMerkleProof proofBytes).mapError fun e =>
    .protoDecode ("MerkleProof: " ++ e)
  match proofs with
  | [p, q] => .ok (p, q)
  | _ =>
      .error (.proofVerificationFailed
        ("expected 2 CommitmentProofs in MerkleProof, got " ++ toString proofs.length))

/-- The check that `value` is under `key` in the store `keyPath` begins with, by a proof that
ends at `appHash`. -/
def verifyChainedMembership (appHash proofBytes : Binary) (keyPath : List String)
    (key value : Binary) : Except ContractError Unit :=
  match keyPath with
  | [] => .error .emptyKeyPath
  | store :: _ => do
      let rawProofs ← decodeMerkleProof lib proofBytes
      let iavlCommitment ← (lib.decodeCommitmentProof rawProofs.1).mapError fun e =>
        .protoDecode ("IAVL CommitmentProof: " ++ e)
      let simpleCommitment ← (lib.decodeCommitmentProof rawProofs.2).mapError fun e =>
        .protoDecode ("SimpleTree CommitmentProof: " ++ e)
      match lib.exist iavlCommitment with
      | none => .error (.proofVerificationFailed "IAVL proof is not an ExistenceProof")
      | some iavlExistence =>
          let moduleRoot ← (lib.calculateExistenceRoot iavlExistence).mapError fun e =>
            .proofVerificationFailed ("calculate IAVL root: " ++ e)
          if lib.verifyMembership iavlCommitment .iavl moduleRoot key value = false then
            .error (.proofVerificationFailed "IAVL membership verification failed")
          else if lib.verifyMembership simpleCommitment .tendermint appHash
              (Utf8.encode store.toList) moduleRoot = false then
            .error (.proofVerificationFailed
              "SimpleTree membership verification failed (module root not in AppHash)")
          else .ok ()

end Hub
