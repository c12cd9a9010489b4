import InterchainEvents.Hub.Proto

/-!
# The root out of the light client's answer

`extractAppHash` gives the root of the consensus state that an answer carries, if the answer
carries one that is read as a Tendermint consensus state with a root that is not empty
(`extractAppHash_iff`). What type the answer says the state is of plays no part in that: the bytes
of a state of another type are taken for one if they can be read as one
(`extractAppHash_solomachine`).
-/

namespace Hub.Proto

open Shared

/-! ### Reading an answer -/

section Prost

variable {prost : Prost} (hprost : prost.FollowsWireFormat)

include hprost

/-- The root that a state in its bytes gives. -/
theorem extractAppHash_of_state {m : QueryConsensusStateResponse}
    (hlen : m.encode.length < 2 ^ 64) {any : Any} (hany : m.consensusState = some any)
    {h : Binary} :
  extractAppHash prost m.encode = .ok h
    ↔ ∃ cs root, TendermintConsensusState.decode any.value = some cs ∧ cs.root = some root ∧
        root.hash = h ∧ h ≠ []
  := by
  have hdecode := (hprost.response m.encode m).mpr (m.sets_encode hlen).mergeInto_eq
  have hstate := hprost.consensusState any.value
  simp only [extractAppHash, hdecode, Except.mapError, bind, Except.bind, hany, ← hstate]
  cases prost.decodeConsensusState any.value with
  | error e => simp
  | ok cs =>
      dsimp only
      cases hroot : cs.root with
      | none => simp [hroot]
      | some root =>
          dsimp only
          split_ifs with hnil
          · simp only [false_iff]
            rintro ⟨cs', root', hcs, hroot', rfl, hne⟩
            obtain rfl := Except.ok.inj hcs
            obtain rfl := Option.some.inj (hroot.symm.trans hroot')
            exact hne hnil
          · constructor
            · intro hok
              obtain rfl := Except.ok.inj hok
              exact ⟨cs, root, rfl, hroot, rfl, hnil⟩
            · rintro ⟨cs', root', hcs, hroot', rfl, -⟩
              obtain rfl := Except.ok.inj hcs
              obtain rfl := Option.some.inj (hroot.symm.trans hroot')
              rfl

theorem extractAppHash_of_none {m : QueryConsensusStateResponse}
    (hlen : m.encode.length < 2 ^ 64) (hnone : m.consensusState = none) :
  extractAppHash prost m.encode = .error (.protoDecode "missing consensus_state field")
  := by
  have hdecode := (hprost.response m.encode m).mpr (m.sets_encode hlen).mergeInto_eq
  simp only [extractAppHash, hdecode, Except.mapError, bind, Except.bind, hnone]

/-- **Extraction is exact.** An answer of the light client, in its encoding, gives a root `h` if
and only if it carries a consensus state of which the bytes are read as a Tendermint consensus
state with the root `h`, and `h` is not empty. -/
theorem extractAppHash_iff (m : QueryConsensusStateResponse) (hlen : m.encode.length < 2 ^ 64)
    (h : Binary) :
  extractAppHash prost m.encode = .ok h
    ↔ ∃ any cs root, m.consensusState = some any ∧
        TendermintConsensusState.decode any.value = some cs ∧ cs.root = some root ∧
        root.hash = h ∧ h ≠ []
  := by
  cases hany : m.consensusState with
  | none =>
      rw [extractAppHash_of_none hprost hlen hany]
      simp
  | some any =>
      rw [extractAppHash_of_state hprost hlen hany]
      simp

end Prost

/-! ### Answers of other clients -/

/-- A message that was read, or the text of an error. -/
def orError {α : Type} (message : Option α) : Except String α :=
  match message with
  | some m => .ok m
  | none => .error "failed to decode Protobuf message"

theorem orError_eq_ok_iff {α : Type} {message : Option α} {m : α} :
  orError message = .ok m ↔ message = some m
  := by
  cases message <;> simp [orError]

/-- A library that reads what the wire format says. -/
def Prost.wire : Prost where
  decodeResponse bytes := orError (QueryConsensusStateResponse.decode bytes)
  decodeConsensusState bytes := orError (TendermintConsensusState.decode bytes)

theorem Prost.wire_followsWireFormat :
  Prost.wire.FollowsWireFormat
  where
  response _ _ := orError_eq_ok_iff
  consensusState _ _ := orError_eq_ok_iff

/-- An answer with nothing but a state has few more bytes than that. -/
theorem length_encode_lt {any : Any} (htypeUrl : (Utf8.encode any.typeUrl.toList).length < 2 ^ 60)
    (hvalue : any.value.length < 2 ^ 60) :
  (QueryConsensusStateResponse.mk (some any) [] none).encode.length < 2 ^ 64
  := by
  have htypeUrl' := Protobuf.length_writeBytes_le (by decide : 1 * 8 + 2 < 2 ^ 64)
    (Nat.lt_trans htypeUrl (by decide))
  have hvalue' := Protobuf.length_writeBytes_le (by decide : 2 * 8 + 2 < 2 ^ 64)
    (Nat.lt_trans hvalue (by decide))
  have hany : any.encode.length < 2 ^ 64 := by
    rw [Any.encode, List.length_append]
    omega
  have hstate := Protobuf.length_bytesField_le (by decide : 1 * 8 + 2 < 2 ^ 64) hany
  rw [Any.encode, List.length_append] at hstate
  show (Protobuf.bytesField 1 any.encode ++ [] ++ []).length < 2 ^ 64
  rw [List.append_nil, List.append_nil, Any.encode]
  omega

/-- The type of the states of a Tendermint client. -/
def tendermintTypeUrl : String := "/ibc.lightclients.tendermint.v1.ConsensusState"

/-- An answer with the state of a client of another type: all it has is a text in its second
field. -/
def solomachineResponse : QueryConsensusStateResponse where
  consensusState := some {
    typeUrl := "/ibc.lightclients.solomachine.v3.ConsensusState"
    value := [0x12, 0x03, 0x0A, 0x01, 0x61] }
  proof := []
  proofHeight := none

/-- Of that text the root is made: it is the encoding of one. -/
theorem extractAppHash_solomachine :
  extractAppHash .wire solomachineResponse.encode = .ok [0x61] ∧
    ¬ ∃ any, solomachineResponse.consensusState = some any ∧ any.typeUrl = tendermintTypeUrl
  := by
  have hlen : solomachineResponse.encode.length < 2 ^ 64 := length_encode_lt (by decide) (by decide)
  constructor
  · apply (extractAppHash_of_state Prost.wire_followsWireFormat hlen rfl).mpr
    exact ⟨_, ⟨[0x61]⟩, rfl, rfl, rfl, by decide⟩
  · rintro ⟨any, hany, htypeUrl⟩
    obtain rfl := Option.some.inj hany
    revert htypeUrl
    decide

/-- An answer with a Tendermint state. -/
def sampleResponse : QueryConsensusStateResponse where
  consensusState := some {
    typeUrl := tendermintTypeUrl
    value := [0x12, 0x04, 0x0A, 0x02, 0xAB, 0xCD] }
  proof := []
  proofHeight := none

theorem extractAppHash_iff_sample :
  extractAppHash .wire sampleResponse.encode = .ok [0xAB, 0xCD]
  := by
  have hlen : sampleResponse.encode.length < 2 ^ 64 := length_encode_lt (by decide) (by decide)
  apply (extractAppHash_iff Prost.wire_followsWireFormat sampleResponse hlen _).mpr
  exact ⟨_, _, ⟨[0xAB, 0xCD]⟩, rfl, rfl, rfl, rfl, by decide⟩

end Hub.Proto
