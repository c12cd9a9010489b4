import InterchainEvents.Hub.Verification
import InterchainEvents.Text.Message

/-!
# The messages of the light client query

The messages that the contract exchanges with the light client of the chain it runs on, as they
are declared: each with what it is without any field, with how one field is merged into it, and
with its encoding. What was encoded is decoded.

`extractAppHash` takes the root out of an answer of the light client. The decoding is that of a
library, and a parameter here (`Prost`); it is assumed to follow the wire format.
-/

namespace Hub.Proto

open Shared Protobuf

/-! ### Messages -/

/-- `google.protobuf.Any` -/
structure Any where
  typeUrl : String
  value : Binary
  deriving DecidableEq

/-- `ibc.core.client.v1.Height` -/
structure ProtoHeight where
  revisionNumber : UInt64
  revisionHeight : UInt64
  deriving DecidableEq

/-- `ibc.core.client.v1.QueryConsensusStateRequest` -/
structure QueryConsensusStateRequest where
  clientId : String
  revisionNumber : UInt64
  revisionHeight : UInt64
  latestHeight : Bool
  deriving DecidableEq

/-- `ibc.core.client.v1.QueryConsensusStateResponse` -/
structure QueryConsensusStateResponse where
  /-- The consensus state, wrapped in `google.protobuf.Any`. -/
  consensusState : Option Any
  proof : Binary
  proofHeight : Option ProtoHeight
  deriving DecidableEq

/-- `google.protobuf.Timestamp` -/
structure Timestamp where
  seconds : Int64
  nanos : Int32
  deriving DecidableEq

/-- `ibc.core.commitment.v1.MerkleRoot` -/
structure MerkleRoot where
  hash : Binary
  deriving DecidableEq

/-- `ibc.lightclients.tendermint.v1.ConsensusState` -/
structure TendermintConsensusState where
  timestamp : Option Timestamp
  root : Option MerkleRoot
  nextValidatorsHash : Binary
  deriving DecidableEq

/-! ### Without fields -/

/-- The message without any field. -/
def Any.empty : Any := ⟨"", []⟩

@[inherit_doc Any.empty]
def ProtoHeight.empty : ProtoHeight := ⟨0, 0⟩

@[inherit_doc Any.empty]
def QueryConsensusStateRequest.empty : QueryConsensusStateRequest := ⟨"", 0, 0, false⟩

@[inherit_doc Any.empty]
def QueryConsensusStateResponse.empty : QueryConsensusStateResponse := ⟨none, [], none⟩

@[inherit_doc Any.empty]
def Timestamp.empty : Timestamp := ⟨0, 0⟩

@[inherit_doc Any.empty]
def MerkleRoot.empty : MerkleRoot := ⟨[]⟩

@[inherit_doc Any.empty]
def TendermintConsensusState.empty : TendermintConsensusState := ⟨none, none, []⟩

/-! ### Merging one field -/

/-- The message with one more field. -/
def Any.merge (m : Any) : ℕ × Option Wire → Option Any
  | (1, v) => (asString v).map fun typeUrl => { m with typeUrl }
  | (2, v) => (asBytes v).map fun value => { m with value }
  | _ => some m

@[inherit_doc Any.merge]
def ProtoHeight.merge (m : ProtoHeight) : ℕ × Option Wire → Option ProtoHeight
  | (1, v) => (asUInt64 v).map fun revisionNumber => { m with revisionNumber }
  | (2, v) => (asUInt64 v).map fun revisionHeight => { m with revisionHeight }
  | _ => some m

@[inherit_doc Any.merge]
def QueryConsensusStateRequest.merge (m : QueryConsensusStateRequest) :
    ℕ × Option Wire → Option QueryConsensusStateRequest
  | (1, v) => (asString v).map fun clientId => { m with clientId }
  | (2, v) => (asUInt64 v).map fun revisionNumber => { m with revisionNumber }
  | (3, v) => (asUInt64 v).map fun revisionHeight => { m with revisionHeight }
  | (4, v) => (asUInt64 v).map fun (flag : UInt64) =>
      { m with latestHeight := decide (flag ≠ 0) }
  | _ => some m

@[inherit_doc Any.merge]
def QueryConsensusStateResponse.merge (m : QueryConsensusStateResponse) :
    ℕ × Option Wire → Option QueryConsensusStateResponse
  | (1, v) =>
      (mergeField Any.merge (m.consensusState.getD .empty) v).map fun any =>
        { m with consensusState := some any }
  | (2, v) => (asBytes v).map fun proof => { m with proof }
  | (3, v) =>
      (mergeField ProtoHeight.merge (m.proofHeight.getD .empty) v).map fun height =>
        { m with proofHeight := some height }
  | _ => some m

@[inherit_doc Any.merge]
def Timestamp.merge (m : Timestamp) : ℕ × Option Wire → Option Timestamp
  | (1, v) => (asUInt64 v).map fun seconds => { m with seconds := seconds.toInt64 }
  | (2, v) => (asUInt64 v).map fun nanos => { m with nanos := nanos.toInt64.toInt32 }
  | _ => some m

@[inherit_doc Any.merge]
def MerkleRoot.merge (m : MerkleRoot) : ℕ × Option Wire → Option MerkleRoot
  | (1, v) => (asBytes v).map fun hash => { m with hash }
  | _ => some m

@[inherit_doc Any.merge]
def TendermintConsensusState.merge (m : TendermintConsensusState) :
    ℕ × Option Wire → Option TendermintConsensusState
  | (1, v) =>
      (mergeField Timestamp.merge (m.timestamp.getD .empty) v).map fun timestamp =>
        { m with timestamp := some timestamp }
  | (2, v) =>
      (mergeField MerkleRoot.merge (m.root.getD .empty) v).map fun root =>
        { m with root := some root }
  | (3, v) => (asBytes v).map fun nextValidatorsHash => { m with nextValidatorsHash }
  | _ => some m

/-! ### Encodings -/

/-- The encoding of the message. -/
def Any.encode (m : Any) : Binary :=
  writeBytes 1 (Utf8.encode m.typeUrl.toList) ++ writeBytes 2 m.value

@[inherit_doc Any.encode]
def ProtoHeight.encode (m : ProtoHeight) : Binary :=
  writeUInt64 1 m.revisionNumber ++ writeUInt64 2 m.revisionHeight

@[inherit_doc Any.encode]
def QueryConsensusStateRequest.encode (m : QueryConsensusStateRequest) : Binary :=
  writeBytes 1 (Utf8.encode m.clientId.toList) ++ writeUInt64 2 m.revisionNumber
    ++ writeUInt64 3 m.revisionHeight ++ writeUInt64 4 (if m.latestHeight then 1 else 0)

@[inherit_doc Any.encode]
def QueryConsensusStateResponse.encode (m : QueryConsensusStateResponse) : Binary :=
  writeMessage 1 (m.consensusState.map Any.encode) ++ writeBytes 2 m.proof
    ++ writeMessage 3 (m.proofHeight.map ProtoHeight.encode)

@[inherit_doc Any.encode]
def Timestamp.encode (m : Timestamp) : Binary :=
  writeUInt64 1 m.seconds.toUInt64 ++ writeUInt64 2 m.nanos.toInt64.toUInt64

@[inherit_doc Any.encode]
def MerkleRoot.encode (m : MerkleRoot) : Binary :=
  writeBytes 1 m.hash

@[inherit_doc Any.encode]
def TendermintConsensusState.encode (m : TendermintConsensusState) : Binary :=
  writeMessage 1 (m.timestamp.map Timestamp.encode)
    ++ writeMessage 2 (m.root.map MerkleRoot.encode) ++ writeBytes 3 m.nextValidatorsHash

/-! ### Decoding -/

/-- The message that bytes are read as. -/
def Any.decode (bytes : Binary) : Option Any :=
  mergeInto Any.merge .empty bytes

@[inherit_doc Any.decode]
def QueryConsensusStateRequest.decode (bytes : Binary) : Option QueryConsensusStateRequest :=
  mergeInto QueryConsensusStateRequest.merge .empty bytes

@[inherit_doc Any.decode]
def QueryConsensusStateResponse.decode (bytes : Binary) : Option QueryConsensusStateResponse :=
  mergeInto QueryConsensusStateResponse.merge .empty bytes

@[inherit_doc Any.decode]
def TendermintConsensusState.decode (bytes : Binary) : Option TendermintConsensusState :=
  mergeInto TendermintConsensusState.merge .empty bytes

/-- What the contract decodes messages with: the message, or the text of an error. -/
structure Prost where
  decodeResponse : Binary → Except String QueryConsensusStateResponse
  decodeConsensusState : Binary → Except String TendermintConsensusState

/-- The library reads what the wire format says, and fails where that says nothing. It is taken
without its recursion limit: prost also fails on groups that are nested more than 100 deep, in
fields that these messages do not have. -/
structure Prost.FollowsWireFormat (prost : Prost) : Prop where
  response : ∀ bytes m, prost.decodeResponse bytes = .ok m
    ↔ QueryConsensusStateResponse.decode bytes = some m
  consensusState : ∀ bytes m, prost.decodeConsensusState bytes = .ok m
    ↔ TendermintConsensusState.decode bytes = some m

/-! ### The helpers of the contract -/

/-- The request for the consensus state of a client at a height. -/
def encodeConsensusStateRequest (clientId : String) (revisionNumber revisionHeight : UInt64) :
    Binary :=
  let req : QueryConsensusStateRequest :=
    { clientId, revisionNumber, revisionHeight, latestHeight := false }
  req.encode

/-- The AppHash (root hash) out of an answer to the request. -/
def extractAppHash (prost : Prost) (responseBytes : Binary) : Except ContractError Binary := do
  let resp ← (prost.decodeResponse responseBytes).mapError fun e =>
    .protoDecode ("QueryConsensusStateResponse: " ++ e)
  match resp.consensusState with
  | none => .error (.protoDecode "missing consensus_state field")
  | some any =>
      let cs ← (prost.decodeConsensusState any.value).mapError fun e =>
        .protoDecode ("TendermintConsensusState: " ++ e)
      match cs.root with
      | none => .error (.protoDecode "missing root field in ConsensusState")
      | some root =>
          if root.hash = [] then .error (.protoDecode "empty root hash in ConsensusState")
          else .ok root.hash

/-! ### What was encoded is decoded -/

theorem asString_encode (s : String) :
  asString (some (.len (Utf8.encode s.toList))) = some s
  := by
  rw [asString, asBytes, Option.bind_some, Utf8.decode?_encode, Option.map_some,
    String.ofList_toList]

theorem eq_empty_of_encode {s : String} (h : Utf8.encode s.toList = []) :
  s = ""
  := by
  have := Utf8.length_le_length_encode s.toList
  rw [h, List.length_nil] at this
  have hnil : s.toList = [] := List.length_eq_zero_iff.mp (by omega)
  rw [← String.ofList_toList (s := s), hnil]

theorem Any.sets_encode (m : Any) (hlen : m.encode.length < 2 ^ 64) :
  Sets Any.merge m.encode .empty m
  := by
  rw [encode, List.length_append] at hlen
  have hset : Sets Any.merge (writeBytes 1 (Utf8.encode m.typeUrl.toList)) .empty
      { Any.empty with typeUrl := m.typeUrl } := by
    apply sets_writeBytes (by decide) (by decide) (by omega)
    · simp only [merge, asString_encode, Option.map_some]
    · intro h
      rw [eq_empty_of_encode h]
      rfl
  apply hset.append
  apply sets_writeBytes (by decide) (by decide) (by omega) rfl
  intro h
  rw [Any.empty, ← h]

theorem asUInt64_toNat (n : UInt64) :
  asUInt64 (some (.varint n.toNat)) = some n
  := by
  rw [asUInt64, UInt64.ofNat_toNat]

theorem ProtoHeight.sets_encode (m : ProtoHeight) :
  Sets ProtoHeight.merge m.encode .empty m
  := by
  have hset : Sets ProtoHeight.merge (writeUInt64 1 m.revisionNumber) .empty
      { ProtoHeight.empty with revisionNumber := m.revisionNumber } := by
    apply sets_writeUInt64 (by decide) (by decide)
    · simp only [merge, asUInt64_toNat, Option.map_some]
    · intro h
      rw [h]
      rfl
  apply hset.append
  apply sets_writeUInt64 (by decide) (by decide)
  · simp only [merge, asUInt64_toNat, Option.map_some]
  · intro h
    rw [ProtoHeight.empty, ← h]

theorem QueryConsensusStateRequest.sets_encode (m : QueryConsensusStateRequest)
    (hlen : m.encode.length < 2 ^ 64) :
  Sets QueryConsensusStateRequest.merge m.encode .empty m
  := by
  simp only [encode, List.length_append] at hlen
  have hset : Sets merge (writeBytes 1 (Utf8.encode m.clientId.toList)) empty
      { empty with clientId := m.clientId } := by
    apply sets_writeBytes (by decide) (by decide) (by omega)
    · simp only [merge, asString_encode, Option.map_some]
    · intro h
      rw [eq_empty_of_encode h]
      rfl
  have hset' : Sets merge (writeUInt64 2 m.revisionNumber) { empty with clientId := m.clientId }
      { m with revisionHeight := 0, latestHeight := false } := by
    apply sets_writeUInt64 (by decide) (by decide)
    · simp only [merge, asUInt64_toNat, Option.map_some]
      rfl
    · intro h
      rw [h]
      rfl
  have hset'' : Sets merge (writeUInt64 3 m.revisionHeight)
      { m with revisionHeight := 0, latestHeight := false } { m with latestHeight := false } := by
    apply sets_writeUInt64 (by decide) (by decide)
    · simp only [merge, asUInt64_toNat, Option.map_some]
    · intro h
      rw [h]
  apply ((hset.append hset').append hset'').append
  apply sets_writeUInt64 (by decide) (by decide)
  · have hflag (b : Bool) : decide ((if b then 1 else 0 : UInt64) ≠ 0) = b := by
      cases b <;> rfl
    simp only [merge, asUInt64_toNat, Option.map_some, hflag]
  · intro h
    cases hlatest : m.latestHeight with
    | true => simp [hlatest] at h
    | false => rw [← hlatest]

theorem Timestamp.sets_encode (m : Timestamp) :
  Sets Timestamp.merge m.encode .empty m
  := by
  have hset : Sets merge (writeUInt64 1 m.seconds.toUInt64) empty
      { empty with seconds := m.seconds } := by
    apply sets_writeUInt64 (by decide) (by decide)
    · simp only [merge, asUInt64_toNat, Option.map_some, Int64.toInt64_toUInt64]
    · intro h
      rw [← Int64.toInt64_toUInt64 m.seconds, h]
      rfl
  apply hset.append
  apply sets_writeUInt64 (by decide) (by decide)
  · simp only [merge, asUInt64_toNat, Option.map_some, Int64.toInt64_toUInt64,
      Int32.toInt32_toInt64]
  · intro h
    have hnanos : m.nanos = 0 := by
      rw [← Int32.toInt32_toInt64 m.nanos, ← Int64.toInt64_toUInt64 m.nanos.toInt64, h]
      rfl
    rw [empty, ← hnanos]

theorem MerkleRoot.sets_encode (m : MerkleRoot) (hlen : m.encode.length < 2 ^ 64) :
  Sets MerkleRoot.merge m.encode .empty m
  := by
  apply sets_writeBytes (by decide) (by decide) hlen rfl
  intro h
  rw [empty, ← h]

theorem TendermintConsensusState.sets_encode (m : TendermintConsensusState)
    (hlen : m.encode.length < 2 ^ 64) :
  Sets TendermintConsensusState.merge m.encode .empty m
  := by
  simp only [encode, List.length_append] at hlen
  have hset : Sets merge (writeMessage 1 (m.timestamp.map Timestamp.encode)) empty
      { empty with timestamp := m.timestamp } := by
    apply sets_writeMessage (by decide) (by decide) (by omega) fun x _ => x.sets_encode
    · intro x hx hfield
      simp only [merge, empty, Option.getD_none]
      rw [hfield, Option.map_some, ← Option.mem_def.mp hx]
    · intro h
      rw [h]
      rfl
  have hset' : Sets merge (writeMessage 2 (m.root.map MerkleRoot.encode))
      { empty with timestamp := m.timestamp } { m with nextValidatorsHash := [] } := by
    apply sets_writeMessage (by decide) (by decide) (by omega) fun x => x.sets_encode
    · intro x hx hfield
      simp only [merge, empty, Option.getD_none]
      rw [hfield, Option.map_some, ← Option.mem_def.mp hx]
    · intro h
      rw [h]
      rfl
  apply (hset.append hset').append
  apply sets_writeBytes (by decide) (by decide) (by omega) rfl
  intro h
  rw [← h]

theorem QueryConsensusStateResponse.sets_encode (m : QueryConsensusStateResponse)
    (hlen : m.encode.length < 2 ^ 64) :
  Sets QueryConsensusStateResponse.merge m.encode .empty m
  := by
  simp only [encode, List.length_append] at hlen
  have hset : Sets merge (writeMessage 1 (m.consensusState.map Any.encode)) empty
      { empty with consensusState := m.consensusState } := by
    apply sets_writeMessage (by decide) (by decide) (by omega) fun x => x.sets_encode
    · intro x hx hfield
      simp only [merge, empty, Option.getD_none]
      rw [hfield, Option.map_some, ← Option.mem_def.mp hx]
    · intro h
      rw [h]
      rfl
  have hset' : Sets merge (writeBytes 2 m.proof) { empty with consensusState := m.consensusState }
      { m with proofHeight := none } := by
    apply sets_writeBytes (by decide) (by decide) (by omega) rfl
    intro h
    rw [h]
    rfl
  apply (hset.append hset').append
  apply sets_writeMessage (by decide) (by decide) (by omega) fun x _ => x.sets_encode
  · intro x hx hfield
    simp only [merge, Option.getD_none]
    rw [hfield, Option.map_some, ← Option.mem_def.mp hx]
  · intro h
    rw [← h]

/-- The contract's request is read as it was meant. -/
theorem decode_encodeConsensusStateRequest (clientId : String)
    (revisionNumber revisionHeight : UInt64)
    (hlen : (encodeConsensusStateRequest clientId revisionNumber revisionHeight).length < 2 ^ 64) :
  QueryConsensusStateRequest.decode
      (encodeConsensusStateRequest clientId revisionNumber revisionHeight)
    = some ⟨clientId, revisionNumber, revisionHeight, false⟩
  := (QueryConsensusStateRequest.sets_encode _ hlen).mergeInto_eq

end Hub.Proto
