import InterchainEvents.Explorer.Address
import InterchainEvents.Watcher.Condition
import InterchainEvents.Watcher.Proof

/-!
# What the watcher does with a subscription

For a subscription the watcher fetches the value under the key it watches with a proof, checks
the condition, and if it holds submits the proof to the contract. The query always goes to the
store `wasm`, whatever the key path of the subscription.

An exception is `none`.
-/

namespace Watcher

open Shared

/-! ### Fetching -/

/-- Decode hex string to bytes. -/
def hexToBytes (hex : List Char) : List UInt8 :=
  Explorer.hexToBytes hex

/-- The hexadecimal text of bytes. -/
def bytesToHex (bytes : List UInt8) : List Char :=
  Explorer.bytesToHex bytes

/-- The bytes that a text in base64 denotes. -/
def fromBase64 (s : String) : Option Binary :=
  (Js.atob s.toList).map fun cs => cs.map fun c => UInt8.ofNat c.toNat

/-- The height in an answer, a negative one as well. Heights are below `2 ^ 53`, so that numbers
hold them exactly. -/
def heightOf (s : String) : Option ℤ :=
  Js.integer (Js.parseInt s.toList (some 10))

/-- A value with a proof. -/
structure StateProof where
  key : Binary
  value : Binary
  height : Option ℤ
  proofOps : List Rpc.ProofOp

/-- The steps of the proof in an answer. -/
def proofOpsOf (result : Rpc.QueryResponse) : Option (List Rpc.ProofOp) :=
  result.proofOps.bind fun ops => ops.mapM fun op =>
    (fromBase64 op.data).map fun data => ⟨op.type, data⟩

/-- The value under a key with a proof, or nothing where the answer has no value. -/
def fetchStateWithProof (node : Rpc.Node) (iavlKeyHex : List Char) :
    Option (Option StateProof) :=
  let result := node.abciQuery "store/wasm/key" ("0x" ++ String.ofList iavlKeyHex)
  match result.value with
  | none => some none
  | some value =>
      if value = "" then some none
      else do
        let key ← fromBase64 result.key
        let value ← fromBase64 value
        let proofOps ← proofOpsOf result
        some (some ⟨key, value, heightOf result.height, proofOps⟩)

/-- The hash of the application after a height, from the header of the next block, which is asked
for up to ten times. -/
def fetchAppHash (node : Rpc.Node) (height : Option ℤ) : Option Binary :=
  height.bind fun height => (List.range 10).findSome? fun attempt =>
    ((node.appHash (height + 1) attempt).filter (· ≠ "")).map fun appHashHex =>
      hexToBytes appHashHex.toList

/-! ### Processing -/

/-- A subscription as the watcher receives it. A JavaScript number holds its number exactly: those
that are listed for the watcher are small (`Tasks.readId_listed`). -/
structure WireSubscription where
  id : ℕ
  keyPath : List String
  watchKey : String
  condition : WireCondition

/-- A subscription as it is written. -/
def wire (sub : Subscription) : WireSubscription :=
  ⟨sub.id, sub.keyPath, toBase64 sub.watchKey, sub.condition.toWire⟩

/-- The message that submits a proof. The number in it may be another value, where it is not one of
a subscription that was listed. -/
structure SubmitMsg (Id : Type := ℕ) where
  subscriptionId : Id
  revisionNumber : ℕ
  revisionHeight : Option ℤ
  appHash : String
  proof : String
  key : String
  value : String
  deriving DecidableEq

/-- The kinds of events the watcher notes. -/
inductive EventType where
  | check
  | conditionMet
  | proofSubmitted
  | error
  deriving DecidableEq

/-- What the watcher does, as far as it concerns others: it notes an event, evaluates a condition
on a value, or submits a proof. -/
inductive Action where
  | note (type : EventType)
  | evaluate (condition : WireCondition) (value : Binary)
  | submit (msg : SubmitMsg)
  deriving DecidableEq

/-- The revision number of the remote chain. -/
def neutronRevisionNumber : ℕ := 2

/-- The submission of a proof, which may fail. -/
def submission (node : Rpc.Node) (accepts : SubmitMsg → Bool) (sub : WireSubscription)
    (proof : StateProof) : List Action :=
  match fetchAppHash node proof.height with
  | none => [.note .error]
  | some appHash =>
      let merkleProof := buildMerkleProof proof.proofOps
      let msg : SubmitMsg := {
        subscriptionId := sub.id
        revisionNumber := neutronRevisionNumber
        revisionHeight := proof.height
        appHash := toBase64 appHash
        proof := toBase64 merkleProof
        key := toBase64 proof.key
        value := toBase64 proof.value }
      [.submit msg, .note (if accepts msg then .proofSubmitted else .error)]

/-- What the watcher does with a subscription. -/
def processSubscription (node : Rpc.Node) (accepts : SubmitMsg → Bool) (sub : WireSubscription) :
    List Action :=
  if sub.watchKey = "" then [.note .check]
  else
    match fromBase64 sub.watchKey with
    | none => []
    | some watchKeyBytes =>
        .note .check ::
          match fetchStateWithProof node (bytesToHex watchKeyBytes) with
          | none => [.note .error]
          | some none => [.note .check]
          | some (some proof) =>
              .evaluate sub.condition proof.value ::
                if checkCondition sub.condition proof.value = false then [.note .check]
                else .note .conditionMet :: submission node accepts sub proof

/-! ### Base64 and heights -/

theorem fromBase64_toBase64 (bytes : Binary) :
  fromBase64 (toBase64 bytes) = some bytes
  := by
  have hbytes : (Utf8.latin1 bytes).map (fun c => UInt8.ofNat c.toNat) = bytes := by
    rw [Utf8.latin1, List.map_map]
    conv => rhs; rw [← List.map_id bytes]
    apply List.map_congr_left
    intro b _
    rw [Function.comp_apply, Utf8.toNat_latin1, UInt8.ofNat_toNat, id_eq]
  rw [fromBase64, toList_toBase64, Js.atob_encode, Option.map_some, hbytes]

theorem toBase64_eq_empty_iff {bytes : Binary} :
  toBase64 bytes = "" ↔ bytes = []
  := by
  constructor
  · intro h
    have hdecode := ofBase64_toBase64 bytes
    rw [h] at hdecode
    have hempty : ofBase64 "" = some [] := rfl
    rw [hempty] at hdecode
    apply (Option.some.inj hdecode).symm
  · rintro rfl
    rfl

theorem heightOf_toString {n : ℕ} (h : n < 2 ^ 53) :
  heightOf (toString n) = some (n : ℤ)
  := Js.integer_parseInt_toString h

end Watcher
