import InterchainEvents.Hub.Verification
import InterchainEvents.Js.Bytes
import InterchainEvents.Rpc.Node
import InterchainEvents.Text.Protobuf

/-!
# Proofs as the scripts wrap them

The steps of the proof that a node gives are wrapped by hand into a `MerkleProof` message: each
is a field of bytes, its length written by `encodeVarint`. Up to 32 bits the lengths are those of
the wire format (`encodeVarint_eq`), so a reader of the format finds the steps again
(`repeatedBytes_buildMerkleProof`).
-/

namespace Scripts

/-- The bytes of a length, seven bits in each. -/
def encodeVarint (value : ℕ) : List UInt8 :=
  if 0x7F < value then
    Js.byte (Js.int32 value &&& 0x7F#32 ||| 0x80#32) :: encodeVarint (Js.int32 value >>> 7).toNat
  else [Js.byte (Js.int32 value &&& 0x7F#32)]
termination_by value
decreasing_by
  apply Js.toNat_int32_shiftRight_lt
  assumption

/-- Build a `MerkleProof` message from the steps of a proof. -/
def buildMerkleProof (proofOps : List Rpc.ProofOp) : List UInt8 :=
  let parts := proofOps.flatMap fun op =>
    let tag := [0x0A]
    let len := encodeVarint op.data.length
    [tag, len, op.data]
  Js.concat parts

/-! ### The wire format -/

/-- Up to 32 bits, the bytes of a length are those of the wire format. -/
theorem encodeVarint_eq {n : ℕ} (h : n < 2 ^ 32) :
  encodeVarint n = Protobuf.varint n
  := by
  induction n using Nat.strongRecOn with
  | ind n ih =>
      rw [encodeVarint, Protobuf.varint, Js.byte, Js.byte, Js.toNat_int32_and h,
        Js.toNat_int32_and_or h, Js.toNat_int32_shiftRight h]
      by_cases hn : n < 128
      · rw [if_neg (by omega), if_pos hn, Nat.mod_eq_of_lt hn]
      · rw [if_pos (by omega), if_neg hn, ih (n / 128) (by omega) (by omega)]

/-- The message is made of fields of bytes with the number one. -/
theorem buildMerkleProof_eq {proofOps : List Rpc.ProofOp}
    (hlen : ∀ op ∈ proofOps, op.data.length < 2 ^ 32) :
  buildMerkleProof proofOps
    = (proofOps.map Rpc.ProofOp.data).flatMap (Protobuf.bytesField 1)
  := by
  have htag : Protobuf.varint (1 * 8 + 2) = [0x0A] := by
    rw [Protobuf.varint, if_pos (by decide)]
    rfl
  rw [buildMerkleProof, Js.concat_eq_flatten]
  induction proofOps with
  | nil => rfl
  | cons op ops ih =>
      rw [List.flatMap_cons, List.flatten_append,
        ih (fun o ho => hlen o (List.mem_cons_of_mem _ ho)), List.map_cons, List.flatMap_cons,
        encodeVarint_eq (hlen op List.mem_cons_self), Protobuf.bytesField, htag]
      simp

/-- A reader of the wire format finds the steps again. -/
theorem repeatedBytes_buildMerkleProof {proofOps : List Rpc.ProofOp}
    (hlen : ∀ op ∈ proofOps, op.data.length < 2 ^ 32) :
  Protobuf.repeatedBytes 1 (buildMerkleProof proofOps) = some (proofOps.map Rpc.ProofOp.data)
  := by
  rw [buildMerkleProof_eq hlen]
  apply Protobuf.repeatedBytes_flatMap (by decide) (by decide)
  intro d hd
  obtain ⟨op, hop, rfl⟩ := List.mem_map.mp hd
  apply Nat.lt_trans (hlen op hop) (by decide)

end Scripts
