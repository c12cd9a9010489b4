import InterchainEvents.Hub.Semantics
import InterchainEvents.Watcher.Condition

/-!
# Equality, as the watcher and as the contract have it

The contract compares bytes. The watcher compares the UTF-8 text of the value with the Latin-1
text of the expected bytes, so it takes a value for equal when it is the UTF-8 encoding of that
text, a byte order mark before it not counting (`checkCondition_equals_iff`). The two agree on
ASCII, and differ on every expected value that is not (`equality_agreement`).
-/

namespace Watcher

open Shared

/-- The UTF-8 encoding of the Latin-1 text of bytes. -/
def recoded (bytes : Binary) : Binary :=
  Utf8.encode (Utf8.latin1 bytes)

theorem checkCondition_equals_iff {value expected : Binary} :
  checkCondition (SubscriptionCondition.toWire (.equals expected)) value = true
    ↔ value = recoded expected ∨ value = Js.markBytes ++ recoded expected
  := by
  simp only [SubscriptionCondition.toWire, checkCondition, toList_toBase64, Js.atob_encode,
    decide_eq_true_eq, Js.textDecode_eq_latin1_iff]
  rw [recoded, Js.markBytes, ← Utf8.encode_append]
  rfl

/-- Bytes are recoded to themselves when they are ASCII. -/
theorem eq_recoded_iff {bytes : Binary} :
  bytes = recoded bytes ↔ Utf8.IsAscii bytes
  := Utf8.eq_encode_latin1_iff

/-- A recoded text with a mark is longer than the bytes it was. -/
theorem ne_mark_append_recoded (bytes : Binary) :
  bytes ≠ Js.markBytes ++ recoded bytes
  := by
  intro h
  have hlength := congrArg List.length h
  have hrecoded : bytes.length ≤ (recoded bytes).length := by
    apply Nat.le_trans _ (Utf8.length_le_length_encode _)
    rw [Utf8.latin1, List.length_map]
  have hmark : Js.markBytes.length = 3 := by decide
  rw [List.length_append, hmark] at hlength
  omega

/-- The contract accepts the expected bytes and no others. -/
theorem checkValue_equals_iff (lib : Hub.Libraries) {value expected : Binary} :
  value = expected ↔ Hub.checkValue lib (.equals expected) value = .ok ()
  := by
  rw [Hub.checkValue_ok_iff, Hub.Satisfies]

/-- The watcher takes a value for the expected one exactly when it is, and so the contract accepts
it, if and only if either the two are the same and ASCII, or they are different and the value is
not the expected one recoded, with a byte order mark or without. -/
theorem equality_agreement (lib : Hub.Libraries) (value expected : Binary) :
  ((checkCondition (SubscriptionCondition.toWire (.equals expected)) value = true
        ↔ value = expected)
      ∧ (value = expected ↔ Hub.checkValue lib (.equals expected) value = .ok ()))
    ↔ (value = expected → Utf8.IsAscii expected) ∧
      (value ≠ expected → value ≠ recoded expected ∧ value ≠ Js.markBytes ++ recoded expected)
  := by
  rw [checkCondition_equals_iff, and_iff_left (checkValue_equals_iff lib)]
  by_cases heq : value = expected
  · subst heq
    have hmark := ne_mark_append_recoded value
    simp only [hmark, or_false, eq_recoded_iff, iff_true, true_implies, ne_eq, not_true_eq_false,
      false_implies, and_true]
  · simp only [heq, iff_false, not_or, false_implies, ne_eq, not_false_eq_true, true_implies,
      true_and]

/-! ### A disagreement -/

/-- The watcher skips the value `é` though it is the expected one. -/
theorem accented_skipped :
  ¬ (checkCondition (SubscriptionCondition.toWire (.equals (utf8 "é"))) (utf8 "é") = true
    ↔ utf8 "é" = utf8 "é")
  := by
  decide

end Watcher
