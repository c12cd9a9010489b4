import InterchainEvents.Hub.Binding
import InterchainEvents.Scripts.Proof

/-!
# Proofs as the watcher wraps them

The watcher has its own copy of the encoder of the scripts. The two build the same bytes, and
the contract finds in them the steps that were wrapped, provided there are two
(`merkleProof_roundTrip`).
-/

namespace Watcher

open Shared Hub

/-- The bytes of a length, seven bits in each. -/
def encodeVarint (value : ℕ) : List UInt8 :=
  if 0x7F < value then
    Js.byte (Js.int32 value &&& 0x7F#32 ||| 0x80#32) :: encodeVarint (Js.int32 value >>> 7).toNat
  else [Js.byte (Js.int32 value &&& 0x7F#32)]
termination_by value
decreasing_by
  apply Js.toNat_int32_shiftRight_lt
  assumption

/-- Build a `MerkleProof` message from the steps of a proof. -/
def buildMerkleProof (proofOps : List Rpc.ProofOp) : List UInt8 :=
  let parts := proofOps.flatMap fun op => [[0x0A], encodeVarint op.data.length, op.data]
  Js.concat parts

/-- The two encoders of lengths agree, on any number. -/
theorem encodeVarint_eq (n : ℕ) :
  encodeVarint n = Scripts.encodeVarint n
  := by
  induction n using Nat.strongRecOn with
  | ind n ih =>
      rw [encodeVarint, Scripts.encodeVarint]
      by_cases hn : 0x7F < n
      · rw [if_pos hn, if_pos hn, ih _ (Js.toNat_int32_shiftRight_lt hn)]
      · rw [if_neg hn, if_neg hn]

/-- The two copies build the same bytes. -/
theorem buildMerkleProof_eq (proofOps : List Rpc.ProofOp) :
  buildMerkleProof proofOps = Scripts.buildMerkleProof proofOps
  := by
  simp only [buildMerkleProof, Scripts.buildMerkleProof, encodeVarint_eq]

/-- What the contract reads `MerkleProof` messages with follows the wire format: where a message
has a repeated field of bytes with the number one, it reads that. -/
def ReadsWireFormat (lib : Libraries) : Prop :=
  ∀ bytes entries, Protobuf.repeatedBytes 1 bytes = some entries →
    lib.decodeMerkleProof bytes = .ok entries

/-- The contract's library finds the data of the steps in the message. -/
theorem decodeMerkleProof_buildMerkleProof {lib : Libraries} (hlib : ReadsWireFormat lib)
    {proofOps : List Rpc.ProofOp} (hlen : ∀ op ∈ proofOps, op.data.length < 2 ^ 32) :
  lib.decodeMerkleProof (buildMerkleProof proofOps) = .ok (proofOps.map Rpc.ProofOp.data)
  := by
  apply hlib
  rw [buildMerkleProof_eq, Scripts.repeatedBytes_buildMerkleProof hlen]

/-- A message with another number of entries than two is refused. -/
theorem decodeMerkleProof_of_length_ne {lib : Libraries} {bytes : Binary} {entries : List Binary}
    (h : lib.decodeMerkleProof bytes = .ok entries) (hne : entries.length ≠ 2) :
  decodeMerkleProof lib bytes
    = .error (.proofVerificationFailed
        ("expected 2 CommitmentProofs in MerkleProof, got " ++ toString entries.length))
  := by
  simp only [decodeMerkleProof, h, Except.mapError, bind, Except.bind]
  split
  · exact absurd rfl hne
  · rfl

/-- **Wrapping round-trips.** The scripts and the watcher build the same bytes from the steps of
a proof; if the data of each step have a length below `2 ^ 32`, the contract reads two steps as
they were, in order, and refuses any other number of them. -/
theorem merkleProof_roundTrip {lib : Libraries} (hlib : ReadsWireFormat lib)
    (proofOps : List Rpc.ProofOp) (hlen : ∀ op ∈ proofOps, op.data.length < 2 ^ 32) :
  buildMerkleProof proofOps = Scripts.buildMerkleProof proofOps ∧
    (∀ p q, proofOps.map Rpc.ProofOp.data = [p, q] →
      decodeMerkleProof lib (buildMerkleProof proofOps) = .ok (p, q)) ∧
    (proofOps.length ≠ 2 →
      decodeMerkleProof lib (buildMerkleProof proofOps)
        = .error (.proofVerificationFailed
          ("expected 2 CommitmentProofs in MerkleProof, got " ++ toString proofOps.length)))
  := by
  have hentries := decodeMerkleProof_buildMerkleProof hlib hlen
  refine ⟨buildMerkleProof_eq proofOps, ?_, ?_⟩
  · intro p q hdata
    apply decodeMerkleProof_ok_iff.mpr
    rw [hentries, hdata]
  · intro hcount
    rw [decodeMerkleProof_of_length_ne hentries (by simpa using hcount), List.length_map]

/-- Libraries that read messages by the wire format, and otherwise know the sample proofs. -/
def wireLibraries : Libraries :=
  { Libraries.sample with
    decodeMerkleProof := fun bytes =>
      match Protobuf.repeatedBytes 1 bytes with
      | some entries => .ok entries
      | none => .error "failed to decode Protobuf message" }

theorem wireLibraries_readsWireFormat :
  ReadsWireFormat wireLibraries
  := by
  intro bytes entries h
  simp [wireLibraries, h]

theorem merkleProof_roundTrip_sample :
  decodeMerkleProof wireLibraries
    (buildMerkleProof [⟨"ics23:iavl", sampleIavl⟩, ⟨"ics23:simple", sampleSimple⟩])
      = .ok (sampleIavl, sampleSimple)
  := by
  apply (merkleProof_roundTrip wireLibraries_readsWireFormat _ (by decide)).2.1
  rfl

end Watcher
