import Mathlib.Data.Nat.Bitwise
import Mathlib.Data.Nat.Notation

/-!
# Arrays of bytes and 32-bit operations

The bitwise operators of JavaScript take their operands as integers of 32 bits. An array of
bytes takes a number modulo 256, and `set` copies bytes into it: parts copied one behind the
other into an array of their joint length are the parts joined (`concat_eq_flatten`).
-/

namespace Js

/-! ### Integers of 32 bits -/

/-- A number as an operand of a bitwise operator. -/
def int32 (n : ℕ) : BitVec 32 := BitVec.ofNat 32 n

/-- The result of a bitwise operator as an element of a `Uint8Array`. -/
def byte (x : BitVec 32) : UInt8 := UInt8.ofNat x.toNat

theorem toNat_int32 {n : ℕ} (h : n < 2 ^ 32) :
  (int32 n).toNat = n
  := by
  rw [int32, BitVec.toNat_ofNat]
  apply Nat.mod_eq_of_lt h

/-- A shift to the right by seven makes a number smaller. -/
theorem toNat_int32_shiftRight_lt {n : ℕ} (h : 0x7F < n) :
  (int32 n >>> 7).toNat < n
  := by
  have hmod : n % 2 ^ 32 ≤ n := Nat.mod_le _ _
  rw [BitVec.toNat_ushiftRight, int32, BitVec.toNat_ofNat, Nat.shiftRight_eq_div_pow]
  omega

theorem toNat_int32_shiftRight {n : ℕ} (h : n < 2 ^ 32) :
  (int32 n >>> 7).toNat = n / 128
  := by
  rw [BitVec.toNat_ushiftRight, toNat_int32 h, Nat.shiftRight_eq_div_pow]

/-- The lowest seven bits. -/
theorem toNat_int32_and {n : ℕ} (h : n < 2 ^ 32) :
  (int32 n &&& 0x7F#32).toNat = n % 128
  := by
  rw [BitVec.toNat_and, toNat_int32 h]
  apply Nat.and_two_pow_sub_one_eq_mod n 7

/-- The lowest seven bits, with the eighth set. -/
theorem toNat_int32_and_or {n : ℕ} (h : n < 2 ^ 32) :
  (int32 n &&& 0x7F#32 ||| 0x80#32).toNat = n % 128 + 128
  := by
  have hlt : n % 128 < 2 ^ 7 := Nat.mod_lt _ (by decide)
  have hor : 2 ^ 7 * 1 + n % 128 = 2 ^ 7 * 1 ||| n % 128 := Nat.two_pow_add_eq_or_of_lt hlt 1
  rw [BitVec.toNat_or, toNat_int32_and h, Nat.or_comm, Nat.add_comm]
  apply hor.symm

/-- The second lowest byte of a number. -/
theorem byte_sshiftRight_and {n : ℕ} (h : n < 2 ^ 31) :
  byte ((int32 n).sshiftRight 8 &&& 0xFF#32) = UInt8.ofNat (n / 256 % 256)
  := by
  have hlt : n < 2 ^ 32 := by omega
  have hmsb : (int32 n).msb = false := by
    rw [BitVec.msb_eq_decide, toNat_int32 hlt]
    apply decide_eq_false
    omega
  rw [byte, BitVec.sshiftRight_eq_of_msb_false hmsb, BitVec.toNat_and, BitVec.toNat_ushiftRight,
    toNat_int32 hlt, Nat.shiftRight_eq_div_pow]
  congr 1
  apply Nat.and_two_pow_sub_one_eq_mod (n / 2 ^ 8) 8

/-- The lowest byte of a number. -/
theorem byte_and {n : ℕ} (h : n < 2 ^ 32) :
  byte (int32 n &&& 0xFF#32) = UInt8.ofNat (n % 256)
  := by
  rw [byte, BitVec.toNat_and, toNat_int32 h]
  congr 1
  apply Nat.and_two_pow_sub_one_eq_mod n 8

/-! ### Arrays of bytes -/

/-- Bytes with others copied over them from an offset on, where they have room. -/
def set (result bytes : List UInt8) (offset : ℕ) : List UInt8 :=
  result.take offset ++ bytes ++ result.drop (offset + bytes.length)

/-- An array and an offset in it, after a part was copied there. -/
def copyPart (acc : List UInt8 × ℕ) (part : List UInt8) : List UInt8 × ℕ :=
  (set acc.1 part acc.2, acc.2 + part.length)

/-- Parts copied one behind the other into an array of their joint length. -/
def concat (parts : List (List UInt8)) : List UInt8 :=
  let total := parts.foldl (fun acc p => acc + p.length) 0
  (parts.foldl copyPart (List.replicate total 0, 0)).1

theorem set_of_room (done bytes : List UInt8) (n : ℕ) :
  set (done ++ List.replicate (bytes.length + n) 0) bytes done.length
    = done ++ bytes ++ List.replicate n 0
  := by
  have hdrop : (done ++ List.replicate (bytes.length + n) 0).drop (done.length + bytes.length)
      = List.replicate n 0 := by
    rw [← List.drop_drop, List.drop_left, List.drop_replicate, Nat.add_sub_cancel_left]
  rw [set, List.take_left, hdrop]

theorem foldl_length (parts : List (List UInt8)) (n : ℕ) :
  parts.foldl (fun acc p => acc + p.length) n = n + parts.flatten.length
  := by
  induction parts generalizing n with
  | nil => rfl
  | cons p parts ih =>
      rw [List.foldl_cons, ih, List.flatten_cons, List.length_append]
      omega

/-- What is copied stands behind what was, and the room for the rest is left. -/
theorem foldl_copyPart (parts : List (List UInt8)) (done : List UInt8) :
  parts.foldl copyPart (done ++ List.replicate parts.flatten.length 0, done.length)
    = (done ++ parts.flatten, (done ++ parts.flatten).length)
  := by
  induction parts generalizing done with
  | nil => simp
  | cons p parts ih =>
      have hstep :
          copyPart (done ++ List.replicate (p.length + parts.flatten.length) 0, done.length) p
            = (done ++ p ++ List.replicate parts.flatten.length 0, (done ++ p).length) := by
        rw [copyPart, set_of_room, List.length_append]
      rw [List.foldl_cons, List.flatten_cons, List.length_append, hstep, ih (done ++ p),
        List.append_assoc]

/-- **Parts copied into one array are the parts joined.** -/
theorem concat_eq_flatten (parts : List (List UInt8)) :
  concat parts = parts.flatten
  := by
  have h := foldl_copyPart parts []
  rw [List.nil_append, List.nil_append, List.length_nil] at h
  rw [concat, foldl_length, Nat.zero_add, h]

end Js
