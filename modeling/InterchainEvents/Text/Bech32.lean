import Mathlib.Algebra.Order.Ring.Nat
import Mathlib.Tactic.Use

/-!
# Addresses in Bech32

An address is a prefix, the separator `1`, the bytes it stands for in groups of five bits, and
six characters of a checksum. `ungroup` gathers the bits of such groups into bytes again
(`ungroup_groups`). The checksum is not interpreted.
-/

namespace Bech32

/-- The characters of the groups. -/
def alphabet : List Char := "qpzry9x8gf2tvdw0s3jn54khce6mua7l".toList

/-- The character of a group. -/
def digit (n : ℕ) : Char := alphabet.getD n 'q'

/-- The groups of bytes, the last one completed with zero bits. -/
def groups : List UInt8 → List ℕ
  | [] => []
  | [a] => [a.toNat / 8, a.toNat % 8 * 4]
  | [a, b] => [a.toNat / 8, a.toNat % 8 * 4 + b.toNat / 64, b.toNat / 2 % 32, b.toNat % 2 * 16]
  | [a, b, c] =>
      [a.toNat / 8, a.toNat % 8 * 4 + b.toNat / 64, b.toNat / 2 % 32,
        b.toNat % 2 * 16 + c.toNat / 16, c.toNat % 16 * 2]
  | [a, b, c, d] =>
      [a.toNat / 8, a.toNat % 8 * 4 + b.toNat / 64, b.toNat / 2 % 32,
        b.toNat % 2 * 16 + c.toNat / 16, c.toNat % 16 * 2 + d.toNat / 128, d.toNat / 4 % 32,
        d.toNat % 4 * 8]
  | a :: b :: c :: d :: e :: rest =>
      a.toNat / 8 :: (a.toNat % 8 * 4 + b.toNat / 64) :: b.toNat / 2 % 32
        :: (b.toNat % 2 * 16 + c.toNat / 16) :: (c.toNat % 16 * 2 + d.toNat / 128)
        :: d.toNat / 4 % 32 :: (d.toNat % 4 * 8 + e.toNat / 32) :: e.toNat % 32 :: groups rest

/-- An address. -/
def address (hrp : List Char) (payload : List UInt8) (checksum : List Char) : List Char :=
  hrp ++ '1' :: ((groups payload).map digit ++ checksum)

/-- The bytes that groups give, `bits` bits of the value `acc` being left from groups before. -/
def ungroup (acc bits : ℕ) : List ℕ → List UInt8
  | [] => []
  | v :: vs =>
      if bits + 5 < 8 then ungroup (acc * 32 + v) (bits + 5) vs
      else
        UInt8.ofNat ((acc * 32 + v) / 2 ^ (bits - 3))
          :: ungroup ((acc * 32 + v) % 2 ^ (bits - 3)) (bits - 3) vs

/-- The place of the character of a group in the alphabet is the group. -/
theorem idxOf_digit : ∀ n < 32, alphabet.idxOf (digit n) = n := by decide

theorem digit_mem_alphabet : ∀ n < 32, digit n ∈ alphabet := by decide

theorem length_alphabet : alphabet.length = 32 := by decide

/-- The separator is not in the alphabet. -/
theorem separator_not_mem_alphabet : '1' ∉ alphabet := by decide

/-- A group is a number of five bits. -/
theorem groups_lt (bs : List UInt8) :
  ∀ n ∈ groups bs, n < 32
  := by
  induction bs using groups.induct with
  | case1 => simp [groups]
  | case2 a =>
      have ha := a.toNat_lt
      simp only [groups, List.forall_mem_cons]
      refine ⟨by omega, by omega, by simp⟩
  | case3 a b =>
      have ha := a.toNat_lt
      have hb := b.toNat_lt
      simp only [groups, List.forall_mem_cons]
      refine ⟨by omega, by omega, by omega, by omega, by simp⟩
  | case4 a b c =>
      have ha := a.toNat_lt
      have hb := b.toNat_lt
      have hc := c.toNat_lt
      simp only [groups, List.forall_mem_cons]
      refine ⟨by omega, by omega, by omega, by omega, by omega, by simp⟩
  | case5 a b c d =>
      have ha := a.toNat_lt
      have hb := b.toNat_lt
      have hc := c.toNat_lt
      have hd := d.toNat_lt
      simp only [groups, List.forall_mem_cons]
      refine ⟨by omega, by omega, by omega, by omega, by omega, by omega, by omega, by simp⟩
  | case6 a b c d e rest ih =>
      have ha := a.toNat_lt
      have hb := b.toNat_lt
      have hc := c.toNat_lt
      have hd := d.toNat_lt
      have he := e.toNat_lt
      simp only [groups, List.forall_mem_cons]
      refine ⟨by omega, by omega, by omega, by omega, by omega, by omega, by omega, by omega, ih⟩

/-! ### Bits left over

Where a group goes on into the next byte, the bits gathered so far are those of the byte before and
the first ones of the next.
-/

section Bits

variable {a b c d e : ℕ}

theorem first_div (hb : b < 256) :
  (a / 8 * 32 + (a % 8 * 4 + b / 64)) / 4 = a
  := by
  omega

theorem first_mod (hb : b < 256) :
  (a / 8 * 32 + (a % 8 * 4 + b / 64)) % 4 = b / 64
  := by
  omega

theorem second_div (hc : c < 256) :
  ((b / 64 * 32 + b / 2 % 32) * 32 + (b % 2 * 16 + c / 16)) / 16 = b
  := by
  omega

theorem second_mod (hc : c < 256) :
  ((b / 64 * 32 + b / 2 % 32) * 32 + (b % 2 * 16 + c / 16)) % 16 = c / 16
  := by
  omega

theorem third_div (hd : d < 256) :
  (c / 16 * 32 + (c % 16 * 2 + d / 128)) / 2 = c
  := by
  omega

theorem third_mod (hd : d < 256) :
  (c / 16 * 32 + (c % 16 * 2 + d / 128)) % 2 = d / 128
  := by
  omega

theorem fourth_div (he : e < 256) :
  ((d / 128 * 32 + d / 4 % 32) * 32 + (d % 4 * 8 + e / 32)) / 8 = d
  := by
  omega

theorem fourth_mod (he : e < 256) :
  ((d / 128 * 32 + d / 4 % 32) * 32 + (d % 4 * 8 + e / 32)) % 8 = e / 32
  := by
  omega

end Bits

/-- The bits of the groups are those of the bytes. -/
theorem ungroup_groups (bs : List UInt8) :
  ungroup 0 0 (groups bs) = bs
  := by
  induction bs using groups.induct with
  | case1 => rfl
  | case2 a =>
      have hlast : (a.toNat / 8 * 32 + a.toNat % 8 * 4) / 4 = a.toNat := by omega
      simp only [groups, ungroup, Nat.reduceAdd, Nat.reduceLT, Nat.reduceSub, Nat.reducePow,
        if_true, if_false, Nat.zero_mul, Nat.zero_add, hlast, UInt8.ofNat_toNat]
  | case3 a b =>
      have hlast : ((b.toNat / 64 * 32 + b.toNat / 2 % 32) * 32 + b.toNat % 2 * 16) / 16
          = b.toNat := by omega
      simp only [groups, ungroup, Nat.reduceAdd, Nat.reduceLT, Nat.reduceSub, Nat.reducePow,
        if_true, if_false, Nat.zero_mul, Nat.zero_add, first_div b.toNat_lt, first_mod b.toNat_lt,
        hlast, UInt8.ofNat_toNat]
  | case4 a b c =>
      have hlast : (c.toNat / 16 * 32 + c.toNat % 16 * 2) / 2 = c.toNat := by omega
      simp only [groups, ungroup, Nat.reduceAdd, Nat.reduceLT, Nat.reduceSub, Nat.reducePow,
        if_true, if_false, Nat.zero_mul, Nat.zero_add, first_div b.toNat_lt, first_mod b.toNat_lt,
        second_div c.toNat_lt, second_mod c.toNat_lt, hlast, UInt8.ofNat_toNat]
  | case5 a b c d =>
      have hlast : ((d.toNat / 128 * 32 + d.toNat / 4 % 32) * 32 + d.toNat % 4 * 8) / 8
          = d.toNat := by omega
      simp only [groups, ungroup, Nat.reduceAdd, Nat.reduceLT, Nat.reduceSub, Nat.reducePow,
        if_true, if_false, Nat.zero_mul, Nat.zero_add, first_div b.toNat_lt, first_mod b.toNat_lt,
        second_div c.toNat_lt, second_mod c.toNat_lt, third_div d.toNat_lt, third_mod d.toNat_lt,
        hlast, UInt8.ofNat_toNat]
  | case6 a b c d e rest ih =>
      have hlast : e.toNat / 32 * 32 + e.toNat % 32 = e.toNat := by omega
      simp only [groups, ungroup, Nat.reduceAdd, Nat.reduceLT, Nat.reduceSub, Nat.reducePow,
        if_true, if_false, Nat.zero_mul, Nat.zero_add, first_div b.toNat_lt, first_mod b.toNat_lt,
        second_div c.toNat_lt, second_mod c.toNat_lt, third_div d.toNat_lt, third_mod d.toNat_lt,
        fourth_div e.toNat_lt, fourth_mod e.toNat_lt, hlast, Nat.div_one, Nat.mod_one, ih,
        UInt8.ofNat_toNat]

end Bech32
