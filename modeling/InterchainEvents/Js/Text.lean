import InterchainEvents.Text.Base64
import InterchainEvents.Text.Utf16
import Mathlib.Data.List.DropRight

/-!
# Texts and bytes in JavaScript

The functions of the platform that turn bytes into texts and texts into bytes: `TextDecoder`,
`atob` and `btoa`. The texts they give have no unpaired surrogates, so they are given here by
their characters.

* `atob_encode`: `atob` gives the Latin-1 reading of the bytes.
* `textDecode_eq_latin1_iff`: when the two readings of two byte strings are the same text.
-/

namespace Js

/-! ### Decoding -/

/-- The byte order mark. -/
def byteOrderMark : Char := '\uFEFF'

/-- The bytes of the byte order mark. -/
def markBytes : List UInt8 := Utf8.encode [byteOrderMark]

/-- A text without a byte order mark at its beginning. -/
def dropMark : List Char → List Char
  | [] => []
  | c :: cs => if c = byteOrderMark then cs else c :: cs

/-- `new TextDecoder().decode(bytes)` -/
def textDecode (bytes : List UInt8) : List Char :=
  dropMark (Utf8.decodeLossy bytes)

/-- `new TextDecoder('utf-8', { fatal: true }).decode(bytes)`, which throws on bytes that are
not well formed. -/
def textDecodeFatal (bytes : List UInt8) : Option (List Char) :=
  (Utf8.decode? bytes).map dropMark

/-- `atob(text)`, which throws on a text that is not base64. -/
def atob (cs : List Char) : Option (List Char) :=
  (Base64.forgivingDecode cs).map Utf8.latin1

/-- `btoa(text)`, which throws on a text with a character beyond Latin-1. -/
def btoa (cs : List Char) : Option (List Char) :=
  if cs.all fun c => decide (c.toNat < 0x100) then
    some (Base64.encode (cs.map fun c => UInt8.ofNat c.toNat))
  else none

@[simp]
theorem dropMark_cons (cs : List Char) :
  dropMark (byteOrderMark :: cs) = cs
  := by
  rw [dropMark, if_pos rfl]

theorem dropMark_of_head {cs : List Char} (h : cs.head? ≠ some byteOrderMark) :
  dropMark cs = cs
  := by
  cases cs with
  | nil => rfl
  | cons c cs =>
      rw [dropMark, if_neg]
      simpa using h

/-- A text that does not itself begin with a mark is what is left of itself, and of itself
after a mark. -/
theorem dropMark_eq_iff {cs ds : List Char} (hds : ds.head? ≠ some byteOrderMark) :
  dropMark cs = ds ↔ cs = ds ∨ cs = byteOrderMark :: ds
  := by
  constructor
  · intro h
    by_cases hcs : cs.head? = some byteOrderMark
    · right
      obtain ⟨cs, rfl⟩ := List.head?_eq_some_iff.mp hcs
      rw [dropMark_cons] at h
      rw [h]
    · left
      rwa [dropMark_of_head hcs] at h
  · rintro (rfl | rfl)
    · apply dropMark_of_head hds
    · apply dropMark_cons

@[simp]
theorem atob_encode (bytes : List UInt8) :
  atob (Base64.encode bytes) = some (Utf8.latin1 bytes)
  := by
  rw [atob, Base64.forgivingDecode_encode]
  rfl

theorem byteOrderMark_not_mem_latin1 (bytes : List UInt8) :
  byteOrderMark ∉ Utf8.latin1 bytes
  := by
  intro h
  have := Utf8.toNat_of_mem_latin1 h
  revert this
  decide

/-- The decoder reads `bytes` as the Latin-1 reading of `bytes'` when `bytes` are the UTF-8
encoding of that reading, or are so after a mark. -/
theorem textDecode_eq_latin1_iff {bytes bytes' : List UInt8} :
  textDecode bytes = Utf8.latin1 bytes'
    ↔ bytes = Utf8.encode (Utf8.latin1 bytes')
        ∨ bytes = Utf8.encode (byteOrderMark :: Utf8.latin1 bytes')
  := by
  have hhead : (Utf8.latin1 bytes').head? ≠ some byteOrderMark := by
    intro h
    apply byteOrderMark_not_mem_latin1 bytes' (List.mem_of_mem_head? h)
  have hlatin1 := Utf8.replacement_not_mem_latin1 bytes'
  have hmarked : Utf8.replacement ∉ byteOrderMark :: Utf8.latin1 bytes' := by
    simpa [Utf8.replacement, byteOrderMark] using hlatin1
  rw [textDecode, dropMark_eq_iff hhead, Utf8.decodeLossy_eq_iff hlatin1,
    Utf8.decodeLossy_eq_iff hmarked]

/-! ### Characters -/

/-- White space and line terminators. -/
def isWhiteSpace (c : Char) : Bool :=
  let n := c.toNat
  decide ((0x9 ≤ n ∧ n ≤ 0xD) ∨ n = 0x20 ∨ n = 0xA0 ∨ n = 0xFEFF ∨ n = 0x1680
    ∨ (0x2000 ≤ n ∧ n ≤ 0x200A) ∨ n = 0x2028 ∨ n = 0x2029 ∨ n = 0x202F ∨ n = 0x205F ∨ n = 0x3000)

/-- `text.toLowerCase()`, of a text in ASCII. -/
def toLowerCase (s : String) : String :=
  String.ofList (s.toList.map Char.toLower)

/-- `text.replace(/"/g, "")` -/
def removeQuotes (cs : List Char) : List Char :=
  cs.filter (· ≠ '"')

theorem removeQuotes_of_not_mem {cs : List Char} (h : ∀ c ∈ cs, c ≠ '"') :
  removeQuotes cs = cs
  := by
  apply List.filter_eq_self.mpr
  simpa using h

theorem removeQuotes_of_all {cs : List Char} (h : cs.all (· = '"')) :
  removeQuotes cs = []
  := by
  apply List.filter_eq_nil_iff.mpr
  simpa using h

theorem removeQuotes_append (cs ds : List Char) :
  removeQuotes (cs ++ ds) = removeQuotes cs ++ removeQuotes ds
  := List.filter_append cs ds

/-- `text.padStart(width, c)` -/
def padStart (width : ℕ) (c : Char) (cs : List Char) : List Char :=
  List.replicate (width - cs.length) c ++ cs

/-- `text.lastIndexOf(c) + 1` -/
def afterLast (c : Char) (cs : List Char) : ℕ :=
  cs.length - (cs.rtakeWhile (· ≠ c)).length

/-- The separator after which nothing else of its kind comes is the last one. -/
theorem afterLast_append {c : Char} {ds : List Char} (h : c ∉ ds) (cs : List Char) :
  afterLast c (cs ++ c :: ds) = cs.length + 1
  := by
  have hall : ∀ d ∈ ds.reverse, decide (d ≠ c) = true := by
    intro d hd
    simp only [decide_eq_true_eq]
    rintro rfl
    apply h (List.mem_reverse.mp hd)
  have hlast : (cs ++ c :: ds).rtakeWhile (· ≠ c) = ds := by
    rw [List.rtakeWhile, List.reverse_append, List.reverse_cons, List.append_assoc,
      List.takeWhile_append_of_pos hall]
    simp
  rw [afterLast, hlast]
  simp only [List.length_append, List.length_cons]
  omega

theorem afterLast_of_not_mem {c : Char} {cs : List Char} (h : c ∉ cs) :
  afterLast c cs = 0
  := by
  have hall : cs.rtakeWhile (· ≠ c) = cs := by
    rw [List.rtakeWhile_eq_self_iff]
    rintro d hd
    simp only [decide_eq_true_eq]
    rintro rfl
    apply h hd
  rw [afterLast, hall, Nat.sub_self]

/-- The place where a character comes last. -/
theorem exists_append_cons_not_mem {c : Char} {cs : List Char} (h : c ∈ cs) :
  ∃ before after, cs = before ++ c :: after ∧ c ∉ after
  := by
  obtain ⟨after, before, hsplit, hafter⟩ :=
    List.eq_append_cons_of_mem (List.mem_reverse.mpr h)
  use before.reverse, after.reverse
  constructor
  · rw [← List.reverse_reverse cs, hsplit]
    simp
  · rwa [List.mem_reverse]

end Js
