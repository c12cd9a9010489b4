import InterchainEvents.Text.Protobuf

/-!
# Messages of protocol buffers

A message is read by merging its fields into it, one after another: a field of a scalar type
replaces what was there, a field of a message type is merged into what was there, and fields of
unknown numbers are skipped, also where they are groups. `mergeInto` does this for a type of
messages, given how one field is merged.

A message is written field by field in the order of their numbers, without the fields that have
the default value of their type. `Writes` says which fields some bytes are read as, and the rules
for it make up the fields of a whole message from those of its parts.
-/

namespace Protobuf

/-! ### Fields and groups -/

/-- The key of a field, and what comes after it. A key is of 32 bits, and no field has the number
zero. -/
def readKey (bs : List UInt8) : Option (ℕ × List UInt8) :=
  (readVarint bs).filter fun (key, _) => key < 2 ^ 32 ∧ key / 8 ≠ 0

/-- What comes after the end of a group of a number, within at most so many keys. -/
def skipGroup : ℕ → ℕ → List UInt8 → Option (List UInt8)
  | 0, _, _ => none
  | k + 1, number, bs => do
      let (key, rest) ← readKey bs
      if key % 8 = 4 then if key / 8 = number then some rest else none
      else if key % 8 = 3 then skipGroup k number (← skipGroup k (key / 8) rest)
      else skipGroup k number (← readValue (key % 8) rest).2

/-- A field, its number and, unless it is a group, its value, and what comes after it. -/
def readEntry (bs : List UInt8) : Option ((ℕ × Option Wire) × List UInt8) := do
  let (key, rest) ← readKey bs
  if key % 8 = 3 then
    let rest ← skipGroup rest.length (key / 8) rest
    some ((key / 8, none), rest)
  else
    let (value, rest) ← readValue (key % 8) rest
    some ((key / 8, some value), rest)

/-- The fields of a message, up to so many. -/
def readEntries : ℕ → List UInt8 → Option (List (ℕ × Option Wire))
  | _, [] => some []
  | 0, _ :: _ => none
  | k + 1, b :: bs => do
      let (entry, rest) ← readEntry (b :: bs)
      let entries ← readEntries k rest
      some (entry :: entries)

/-! ### Reading messages -/

/-- The value of a field of bytes. -/
def asBytes : Option Wire → Option (List UInt8)
  | some (.len bytes) => some bytes
  | _ => none

/-- The value of a field of text, which is in UTF-8. -/
def asString (value : Option Wire) : Option String :=
  ((asBytes value).bind Utf8.decode?).map String.ofList

/-- The value of a field of an unsigned integer of 64 bits. -/
def asUInt64 : Option Wire → Option UInt64
  | some (.varint n) => some (UInt64.ofNat n)
  | _ => none

section Messages

variable {α : Type} (merge : α → ℕ × Option Wire → Option α)

/-- A message with the fields of another one merged into it, `merge` being how one field is. -/
def mergeInto (m : α) (bytes : List UInt8) : Option α :=
  (readEntries bytes.length bytes).bind (·.foldlM merge m)

/-- A message with the value of a field of the type of messages merged into it. -/
def mergeField (m : α) (value : Option Wire) : Option α :=
  (asBytes value).bind (mergeInto merge m)

end Messages

/-! ### Writing messages -/

/-- A field of an integer, unless it is zero. -/
def writeUInt64 (number : ℕ) (n : UInt64) : List UInt8 :=
  if n = 0 then [] else varint (number * 8) ++ varint n.toNat

/-- A field of bytes, unless there are none. -/
def writeBytes (number : ℕ) (bytes : List UInt8) : List UInt8 :=
  if bytes = [] then [] else bytesField number bytes

/-- A field of a message in its encoding, if there is one. -/
def writeMessage (number : ℕ) (message : Option (List UInt8)) : List UInt8 :=
  match message with
  | none => []
  | some bytes => bytesField number bytes

/-- A number of at most `k + 1` groups has that many bytes. -/
theorem length_varint_le {k n : ℕ} (h : n < 128 ^ (k + 1)) :
  (varint n).length ≤ k + 1
  := by
  induction k generalizing n with
  | zero =>
      have hn : n < 128 := h
      rw [varint, if_pos hn]
      apply Nat.le_refl
  | succ k ih =>
      rw [varint]
      split_ifs with hn
      · simp
      · have hdiv : n / 128 < 128 ^ (k + 1) := by
          rw [Nat.pow_succ] at h
          apply Nat.div_lt_of_lt_mul
          omega
        have := ih hdiv
        rw [List.length_cons]
        omega

theorem length_le_bytesField (number : ℕ) (bytes : List UInt8) :
  bytes.length ≤ (bytesField number bytes).length
  := by
  simp only [bytesField, List.length_append]
  omega

theorem length_bytesField_le {number : ℕ} (hnumber : number * 8 + 2 < 2 ^ 64) {bytes : List UInt8}
    (hbytes : bytes.length < 2 ^ 64) :
  (bytesField number bytes).length ≤ 20 + bytes.length
  := by
  have hkey := length_varint_le (k := 9) (Nat.lt_trans hnumber (by decide))
  have hlen := length_varint_le (k := 9) (Nat.lt_trans hbytes (by decide))
  simp only [bytesField, List.length_append]
  omega

theorem length_writeBytes_le {number : ℕ} (hnumber : number * 8 + 2 < 2 ^ 64) {bytes : List UInt8}
    (hbytes : bytes.length < 2 ^ 64) :
  (writeBytes number bytes).length ≤ 20 + bytes.length
  := by
  unfold writeBytes
  split_ifs
  · simp
  · apply length_bytesField_le hnumber hbytes

/-! ### What was written is read -/

theorem readKey_varint {key : ℕ} (hkey : key < 2 ^ 32) (hpos : key / 8 ≠ 0) (rest : List UInt8) :
  readKey (varint key ++ rest) = some (key, rest)
  := by
  rw [readKey, readVarint_varint (Nat.lt_trans hkey (by decide))]
  apply Option.filter_some_pos
  simpa [hpos] using hkey

theorem readEntry_bytesField {number : ℕ} (hpos : 0 < number) (hnumber : number * 8 + 2 < 2 ^ 32)
    {bytes : List UInt8} (hbytes : bytes.length < 2 ^ 64) (rest : List UInt8) :
  readEntry (bytesField number bytes ++ rest) = some ((number, some (.len bytes)), rest)
  := by
  have hdiv : (number * 8 + 2) / 8 = number := by omega
  have hmod : (number * 8 + 2) % 8 = 2 := by omega
  have hread : readBytes bytes.length (bytes ++ rest) = some (bytes, rest) := by
    rw [readBytes, if_pos (by simp), List.take_left, List.drop_left]
  simp only [readEntry, bytesField, List.append_assoc, readKey_varint hnumber (by omega),
    Option.bind_eq_bind, Option.bind_some, hdiv, hmod]
  rw [if_neg (by decide)]
  simp only [readValue, readVarint_varint hbytes, Option.bind_eq_bind, Option.bind_some, hread]

theorem readEntry_varint {number : ℕ} (hpos : 0 < number) (hnumber : number * 8 < 2 ^ 32)
    (n : UInt64) (rest : List UInt8) :
  readEntry (varint (number * 8) ++ varint n.toNat ++ rest)
    = some ((number, some (.varint n.toNat)), rest)
  := by
  have hdiv : number * 8 / 8 = number := by omega
  have hmod : number * 8 % 8 = 0 := by omega
  simp only [readEntry, List.append_assoc, readKey_varint hnumber (by omega),
    Option.bind_eq_bind, Option.bind_some, hdiv, hmod]
  rw [if_neg (by decide)]
  simp only [readValue, readVarint_varint n.toNat_lt, Option.map_some, Option.bind_some]

/-- More room does not change the fields read. -/
theorem readEntries_succ {k : ℕ} {bs : List UInt8} {es : List (ℕ × Option Wire)}
    (h : readEntries k bs = some es) :
  readEntries (k + 1) bs = some es
  := by
  induction k generalizing bs es with
  | zero =>
      cases bs with
      | nil => exact h
      | cons b bs => contradiction
  | succ k ih =>
      cases bs with
      | nil => exact h
      | cons b bs =>
          obtain ⟨⟨entry, rest⟩, hentry, h⟩ := Option.bind_eq_some_iff.mp h
          obtain ⟨entries, hentries, heq⟩ := Option.bind_eq_some_iff.mp h
          rw [readEntries, hentry]
          simp only [Option.bind_eq_bind, Option.bind_some, ih hentries]
          exact heq

theorem readEntries_of_le {j k : ℕ} (hjk : j ≤ k) {bs : List UInt8} {es : List (ℕ × Option Wire)}
    (h : readEntries j bs = some es) :
  readEntries k bs = some es
  := by
  induction hjk with
  | refl => exact h
  | step _ ih => apply readEntries_succ ih

/-- Wherever the bytes stand in front, they are read as these fields. -/
def Writes (w : List UInt8) (es : List (ℕ × Option Wire)) : Prop :=
  ∀ k rest fs, readEntries k rest = some fs →
    readEntries (w.length + k) (w ++ rest) = some (es ++ fs)

theorem writes_nil :
  Writes [] []
  := by
  intro k rest fs h
  rwa [List.length_nil, Nat.zero_add]

theorem Writes.append {w w' : List UInt8} {es es' : List (ℕ × Option Wire)} (h : Writes w es)
    (h' : Writes w' es') :
  Writes (w ++ w') (es ++ es')
  := by
  intro k rest fs hrest
  rw [List.append_assoc, List.append_assoc, List.length_append, Nat.add_assoc]
  apply h _ _ _ (h' k rest fs hrest)

theorem writes_of_readEntry {w : List UInt8} {e : ℕ × Option Wire} (hne : w ≠ [])
    (h : ∀ rest, readEntry (w ++ rest) = some (e, rest)) :
  Writes w [e]
  := by
  intro k rest fs hrest
  obtain ⟨b, bs, rfl⟩ := List.exists_cons_of_ne_nil hne
  have hentry := h rest
  have hmore := readEntries_of_le (by omega : k ≤ bs.length + k) hrest
  rw [List.cons_append] at hentry ⊢
  rw [List.length_cons, Nat.add_right_comm, readEntries, hentry]
  simp only [Option.bind_eq_bind, Option.bind_some, hmore]
  rfl

theorem writes_bytesField {number : ℕ} (hpos : 0 < number) (hnumber : number * 8 + 2 < 2 ^ 32)
    {bytes : List UInt8} (hbytes : bytes.length < 2 ^ 64) :
  Writes (bytesField number bytes) [(number, some (.len bytes))]
  := by
  apply writes_of_readEntry
  · simp [bytesField, varint_ne_nil]
  · apply readEntry_bytesField hpos hnumber hbytes

theorem writes_varint {number : ℕ} (hpos : 0 < number) (hnumber : number * 8 < 2 ^ 32)
    (n : UInt64) :
  Writes (varint (number * 8) ++ varint n.toNat) [(number, some (.varint n.toNat))]
  := by
  apply writes_of_readEntry
  · simp [varint_ne_nil]
  · apply readEntry_varint hpos hnumber

section Sets

variable {α : Type} {merge : α → ℕ × Option Wire → Option α}

variable (merge) in
/-- Merged into one message, the bytes make it the other. -/
def Sets (w : List UInt8) (m m' : α) : Prop :=
  ∃ es, Writes w es ∧ es.foldlM merge m = some m'

theorem sets_nil (m : α) :
  Sets merge [] m m
  := ⟨[], writes_nil, rfl⟩

theorem Sets.append {w w' : List UInt8} {m m' m'' : α} (h : Sets merge w m m')
    (h' : Sets merge w' m' m'') :
  Sets merge (w ++ w') m m''
  := by
  obtain ⟨es, hw, hes⟩ := h
  obtain ⟨es', hw', hes'⟩ := h'
  use es ++ es', hw.append hw'
  rw [List.foldlM_append, hes]
  apply hes'

theorem sets_of_writes {w : List UInt8} {e : ℕ × Option Wire} {m m' : α} (hw : Writes w [e])
    (hmerge : merge m e = some m') :
  Sets merge w m m'
  := by
  use [e], hw
  rw [List.foldlM_cons, hmerge]
  rfl

/-- A field of bytes is set, to the default if it was not written. -/
theorem sets_writeBytes {number : ℕ} (hpos : 0 < number) (hnumber : number * 8 + 2 < 2 ^ 32)
    {bytes : List UInt8} (hlen : (writeBytes number bytes).length < 2 ^ 64) {m m' : α}
    (hmerge : merge m (number, some (.len bytes)) = some m') (hdefault : bytes = [] → m = m') :
  Sets merge (writeBytes number bytes) m m'
  := by
  unfold writeBytes at hlen ⊢
  split_ifs at hlen ⊢ with hnil
  · rw [hdefault hnil]
    apply sets_nil
  · apply sets_of_writes _ hmerge
    apply writes_bytesField hpos hnumber
    apply Nat.lt_of_le_of_lt (length_le_bytesField number bytes) hlen

theorem sets_writeUInt64 {number : ℕ} (hpos : 0 < number) (hnumber : number * 8 < 2 ^ 32)
    {n : UInt64} {m m' : α} (hmerge : merge m (number, some (.varint n.toNat)) = some m')
    (hdefault : n = 0 → m = m') :
  Sets merge (writeUInt64 number n) m m'
  := by
  unfold writeUInt64
  split_ifs with hzero
  · rw [hdefault hzero]
    apply sets_nil
  · apply sets_of_writes (writes_varint hpos hnumber n) hmerge

/-- Bytes that make one message the other do so when they are merged into it. -/
theorem Sets.mergeInto_eq {w : List UInt8} {m m' : α} (h : Sets merge w m m') :
  mergeInto merge m w = some m'
  := by
  obtain ⟨es, hw, hes⟩ := h
  have hread := hw 0 [] [] rfl
  rw [List.append_nil, List.append_nil, Nat.add_zero] at hread
  rw [mergeInto, hread, Option.bind_some, hes]

theorem Sets.mergeField_eq {w : List UInt8} {m m' : α} (h : Sets merge w m m') :
  mergeField merge m (some (.len w)) = some m'
  := h.mergeInto_eq

/-- A field of a message is set to the message that its bytes make. -/
theorem sets_writeMessage {number : ℕ} (hpos : 0 < number) (hnumber : number * 8 + 2 < 2 ^ 32)
    {β : Type} {sub : β → ℕ × Option Wire → Option β} {start : β} {encode : β → List UInt8}
    {field : Option β} (hlen : (writeMessage number (field.map encode)).length < 2 ^ 64)
    (hsub : ∀ x, (encode x).length < 2 ^ 64 → Sets sub (encode x) start x) {m m' : α}
    (hmerge : ∀ x ∈ field, mergeField sub start (some (.len (encode x))) = some x →
      merge m (number, some (.len (encode x))) = some m')
    (hdefault : field = none → m = m') :
  Sets merge (writeMessage number (field.map encode)) m m'
  := by
  cases field with
  | none =>
      rw [hdefault rfl]
      apply sets_nil
  | some x =>
      have hx : (encode x).length < 2 ^ 64 :=
        Nat.lt_of_le_of_lt (length_le_bytesField number (encode x)) hlen
      apply sets_of_writes (writes_bytesField hpos hnumber hx)
      apply hmerge x rfl (hsub x hx).mergeField_eq

end Sets

end Protobuf
