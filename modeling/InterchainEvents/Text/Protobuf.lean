import Mathlib.Algebra.Order.Ring.Nat
import Mathlib.Data.Nat.Notation
import InterchainEvents.Text.Utf8

/-!
# The wire format of protocol buffers

A message is a sequence of fields, each a key and a value: the key is a variable-length integer
with the number of the field and the type of the value. `repeatedBytes` is what a message has in
a repeated field of bytes, fields of other numbers being skipped; groups, which the format
deprecates, are not read. `repeatedBytes_flatMap` says that what was written is read.
-/

namespace Protobuf

/-! ### Integers of variable length -/

/-- A number in groups of seven bits, the lowest first, all but the last with the high bit
set. -/
def varint (n : ℕ) : List UInt8 :=
  if n < 128 then [UInt8.ofNat n] else UInt8.ofNat (n % 128 + 128) :: varint (n / 128)

/-- A number of at most so many groups, and what comes after it. -/
def readGroups : ℕ → List UInt8 → Option (ℕ × List UInt8)
  | 0, _ => none
  | _ + 1, [] => none
  | k + 1, b :: bs =>
      if b.toNat < 128 then some (b.toNat, bs)
      else (readGroups k bs).map fun (n, rest) => (b.toNat - 128 + 128 * n, rest)

/-- A number of 64 bits, and what comes after it. -/
def readVarint (bs : List UInt8) : Option (ℕ × List UInt8) :=
  (readGroups 10 bs).filter fun (n, _) => n < 2 ^ 64

/-- A number of at most `k + 1` groups is read back, whatever comes after it. -/
theorem readGroups_varint {k n : ℕ} (h : n < 128 ^ (k + 1)) (rest : List UInt8) :
  readGroups (k + 1) (varint n ++ rest) = some (n, rest)
  := by
  induction k generalizing n with
  | zero =>
      have hn : n < 128 := h
      rw [varint, if_pos hn, List.singleton_append, readGroups,
        Utf8.toNat_ofNat_of_lt (by omega), if_pos hn]
  | succ k ih =>
      rw [varint]
      split_ifs with hn
      · rw [List.singleton_append, readGroups, Utf8.toNat_ofNat_of_lt (by omega), if_pos hn]
      · have hdiv : n / 128 < 128 ^ (k + 1) := by
          rw [Nat.pow_succ] at h
          apply Nat.div_lt_of_lt_mul
          omega
        rw [List.cons_append, readGroups, Utf8.toNat_ofNat_of_lt (by omega), if_neg (by omega),
          ih hdiv]
        simp only [Option.map_some, Option.some.injEq, Prod.mk.injEq, and_true]
        omega

/-- A number that was written is read back. -/
theorem readVarint_varint {n : ℕ} (h : n < 2 ^ 64) (rest : List UInt8) :
  readVarint (varint n ++ rest) = some (n, rest)
  := by
  have hgroups : n < 128 ^ (9 + 1) := Nat.lt_trans h (by decide)
  rw [readVarint, readGroups_varint hgroups]
  apply Option.filter_some_pos
  simpa using h

/-! ### Fields -/

/-- The value of a field. -/
inductive Wire where
  | varint (n : ℕ)
  | i64 (bytes : List UInt8)
  | len (bytes : List UInt8)
  | i32 (bytes : List UInt8)

/-- The first so many bytes, and what comes after them. -/
def readBytes (n : ℕ) (bs : List UInt8) : Option (List UInt8 × List UInt8) :=
  if n ≤ bs.length then some (bs.take n, bs.drop n) else none

/-- The value of a type, and what comes after it. -/
def readValue (type : ℕ) (bs : List UInt8) : Option (Wire × List UInt8) :=
  match type with
  | 0 => (readVarint bs).map fun (n, rest) => (.varint n, rest)
  | 1 => (readBytes 8 bs).map fun (v, rest) => (.i64 v, rest)
  | 2 => do
      let (n, rest) ← readVarint bs
      let (v, rest) ← readBytes n rest
      some (.len v, rest)
  | 5 => (readBytes 4 bs).map fun (v, rest) => (.i32 v, rest)
  | _ => none

/-- A field, its number and value, and what comes after it. A key is of 32 bits, and no field
has the number zero. -/
def readField (bs : List UInt8) : Option ((ℕ × Wire) × List UInt8) := do
  let (key, rest) ← readVarint bs
  if 2 ^ 32 ≤ key ∨ key / 8 = 0 then none
  else
    let (value, rest) ← readValue (key % 8) rest
    some ((key / 8, value), rest)

/-- The fields of a message, up to so many. -/
def readFields : ℕ → List UInt8 → Option (List (ℕ × Wire))
  | _, [] => some []
  | 0, _ :: _ => none
  | k + 1, b :: bs => do
      let (field, rest) ← readField (b :: bs)
      let fields ← readFields k rest
      some (field :: fields)

/-- The byte strings in the fields of a number, if all its fields hold byte strings. -/
def bytesOf (number : ℕ) : List (ℕ × Wire) → Option (List (List UInt8))
  | [] => some []
  | (k, value) :: fields =>
      if k = number then
        match value with
        | .len bytes => (bytesOf number fields).map (bytes :: ·)
        | _ => none
      else bytesOf number fields

/-- What a message has in the repeated field of bytes of a number. -/
def repeatedBytes (number : ℕ) (message : List UInt8) : Option (List (List UInt8)) :=
  (readFields message.length message).bind (bytesOf number)

/-! ### Writing -/

/-- A field of bytes. -/
def bytesField (number : ℕ) (bytes : List UInt8) : List UInt8 :=
  varint (number * 8 + 2) ++ varint bytes.length ++ bytes

theorem varint_ne_nil (n : ℕ) :
  varint n ≠ []
  := by
  rw [varint]
  split_ifs <;> simp

/-- A field that was written is read back. -/
theorem readField_bytesField {number : ℕ} (hpos : 0 < number) (hnumber : number * 8 + 2 < 2 ^ 32)
    {bytes : List UInt8} (hbytes : bytes.length < 2 ^ 64) (rest : List UInt8) :
  readField (bytesField number bytes ++ rest) = some ((number, .len bytes), rest)
  := by
  have hkey : number * 8 + 2 < 2 ^ 64 := Nat.lt_trans hnumber (by decide)
  have hdiv : (number * 8 + 2) / 8 = number := by omega
  have hmod : (number * 8 + 2) % 8 = 2 := by omega
  have hread : readBytes bytes.length (bytes ++ rest) = some (bytes, rest) := by
    rw [readBytes, if_pos (by simp), List.take_left, List.drop_left]
  simp only [readField, bytesField, List.append_assoc, readVarint_varint hkey,
    Option.bind_eq_bind, Option.bind_some, hdiv, hmod]
  rw [if_neg (by omega)]
  simp only [readValue, readVarint_varint hbytes, Option.bind_eq_bind, Option.bind_some, hread]

theorem readFields_flatMap {number : ℕ} (hpos : 0 < number) (hnumber : number * 8 + 2 < 2 ^ 32)
    {ds : List (List UInt8)} (hds : ∀ d ∈ ds, d.length < 2 ^ 64) {k : ℕ}
    (hk : (ds.flatMap (bytesField number)).length ≤ k) :
  readFields k (ds.flatMap (bytesField number)) = some (ds.map fun d => (number, .len d))
  := by
  induction ds generalizing k with
  | nil => cases k <;> rfl
  | cons d ds ih =>
      have hne : bytesField number d ≠ [] := by simp [bytesField, varint_ne_nil]
      have hlen := List.length_pos_iff.mpr hne
      rw [List.flatMap_cons, List.length_append] at hk
      obtain ⟨j, rfl⟩ : ∃ j, k = j + 1 := ⟨k - 1, by omega⟩
      have hfield := readField_bytesField hpos hnumber (hds d List.mem_cons_self)
        (ds.flatMap (bytesField number))
      rw [List.flatMap_cons]
      obtain ⟨b, bs, hbs⟩ := List.exists_cons_of_ne_nil hne
      rw [hbs, List.cons_append] at hfield ⊢
      rw [readFields, hfield]
      simp only [Option.bind_eq_bind, Option.bind_some]
      rw [ih (fun d' hd' => hds d' (List.mem_cons_of_mem _ hd')) (by omega)]
      rfl

theorem bytesOf_map (number : ℕ) (ds : List (List UInt8)) :
  bytesOf number (ds.map fun d => (number, .len d)) = some ds
  := by
  induction ds with
  | nil => rfl
  | cons d ds ih =>
      rw [List.map_cons, bytesOf, if_pos rfl, ih, Option.map_some]

/-- **What was written is read.** A message of fields of bytes of one number holds these bytes,
in order. -/
theorem repeatedBytes_flatMap {number : ℕ} (hpos : 0 < number) (hnumber : number * 8 + 2 < 2 ^ 32)
    {ds : List (List UInt8)} (hds : ∀ d ∈ ds, d.length < 2 ^ 64) :
  repeatedBytes number (ds.flatMap (bytesField number)) = some ds
  := by
  rw [repeatedBytes, readFields_flatMap hpos hnumber hds (Nat.le_refl _), Option.bind_some,
    bytesOf_map]

end Protobuf
