import InterchainEvents.Explorer.Form
import InterchainEvents.Js.Shortest
import InterchainEvents.Rust.JsonText

/-!
# What the contract stores of a subscribe form

The form should be stored as it was filled in: the condition chosen, with the texts that were
typed as bytes in UTF-8, and the callback message in UTF-8 (`Stored`). But the message carries
the texts of a condition as they were typed, where the contract expects base64, and the callback
message as the base64 of Latin-1. So the form is stored as filled in only when no such text is
typed, the callback message is ASCII and not empty, and the number of blocks is one that the
contract can read (`stored_iff`). The number is cut off at the first character of its text that is
not a digit: what is cut off may be a fraction or an exponent (`BlocksReadable`).
-/

namespace Explorer

open Shared

/-! ### What is filled in -/

/-- The condition that was chosen, with the bytes of the texts that were typed. -/
def chosen (form : Form) : SubscriptionCondition :=
  match form.condition with
  | .exists => .exists
  | .equals => .equals (utf8 form.expectedValue)
  | .jsonPathEquals => .jsonPathEquals form.jsonPath form.jsonExpected
  | .greaterThan => .greaterThan (utf8 form.threshold) form.encoding
  | .lessThan => .lessThan (utf8 form.threshold) form.encoding

/-- The text that was typed for the bytes of the condition, if the condition has any. -/
def typed (form : Form) : Option String :=
  match form.condition with
  | .exists => none
  | .equals => some form.expectedValue
  | .jsonPathEquals => none
  | .greaterThan => some form.threshold
  | .lessThan => some form.threshold

/-- The form can be sent: the fields that must be filled in are. -/
structure Ready (form : Form) : Prop where
  clientId : form.clientId ≠ ""
  storeKey : form.storeKey.getD "" ≠ ""
  callbackContract : form.callbackContract ≠ ""

/-- A number of blocks that is sent as one the contract can read: what is not finite counts as none,
and a finite number is below `2 ^ 64`, or is written with an exponent, from `10 ^ 21` on, so that
its first digit is sent; and of the negative numbers, only those between minus one and
`-10 ^ (-6)` are sent as zero. -/
def ReadableNumber : Binary64 → Prop
  | .finite false m => m < 2 ^ 64 * Binary64.one ∨ 10 ^ 21 * Binary64.one ≤ m
  | .finite true m =>
      m = 0 ∨ (Binary64.roundScaled 1 (10 ^ 6) ≤ m ∧ m < Binary64.one)
  | _ => True

/-- The field for the number of blocks is empty, or holds one that the contract can read. -/
def BlocksReadable (form : Form) : Prop :=
  ∀ x ∈ form.expiresAfter, ReadableNumber x

/-- The contract reads what was filled in. -/
def Stored (form : Form) : Prop :=
  ∃ msg watchKey blocks, handleSubmit true form = .ok msg ∧
    readSubscribe msg = some (.subscribe form.clientId [form.storeName] watchKey (chosen form)
      form.callbackContract (utf8 form.callbackMsg) blocks)

/-! ### Texts -/

/-- A text is the base64 of its own bytes only when it is empty. -/
theorem ofBase64_eq_utf8_iff {s : String} :
  ofBase64 s = some (utf8 s) ↔ s = ""
  := by
  constructor
  · intro h
    by_contra hne
    have hlt := Base64.length_lt_of_decode h (by simpa using hne)
    have hle := Utf8.length_le_length_encode s.toList
    rw [utf8] at hlt
    omega
  · rintro rfl
    rfl

/-- The contract reads a text that went through `btoa` when it is ASCII. -/
theorem btoa_iff {cs : List Char} :
  (∃ s, Js.btoa cs = some s ∧ Base64.decode s = some (Utf8.encode cs))
    ↔ ∀ c ∈ cs, c.toNat < 0x80
  := by
  rw [← Utf8.map_ofNat_eq_encode_iff]
  constructor
  · rintro ⟨s, hs, hdecode⟩
    obtain ⟨-, heq⟩ := Option.ite_none_right_eq_some.mp hs
    rw [← Option.some.inj heq, Base64.decode_encode] at hdecode
    apply Option.some.inj hdecode
  · intro h
    have hascii := Utf8.map_ofNat_eq_encode_iff.mp h
    use Base64.encode (Utf8.encode cs)
    have hall : cs.all fun c => decide (c.toNat < 0x100) := by
      apply List.all_eq_true.mpr
      intro c hc
      apply decide_eq_true ((hascii c hc).trans (by decide))
    rw [Js.btoa, if_pos hall, h]
    use rfl, Base64.decode_encode _

/-! ### The condition -/

/-- The contract reads the condition that was chosen when no text was typed for its bytes. -/
theorem ofWire_buildCondition_iff (form : Form) :
  SubscriptionCondition.ofWire (buildCondition form) = some (chosen form)
    ↔ ∀ s ∈ typed form, s = ""
  := by
  have hencoding : ∀ e, ValueEncoding.ofWire (Js.toLowerCase (encodingOption e)) = some e := by
    intro e
    cases e <;> decide
  cases hcondition : form.condition with
  | «exists» => simp [buildCondition, chosen, typed, hcondition, SubscriptionCondition.ofWire]
  | equals =>
      simp [buildCondition, chosen, typed, hcondition, SubscriptionCondition.ofWire,
        ← ofBase64_eq_utf8_iff]
  | jsonPathEquals =>
      simp [buildCondition, chosen, typed, hcondition, SubscriptionCondition.ofWire]
  | greaterThan =>
      simp only [buildCondition, chosen, typed, hcondition, SubscriptionCondition.ofWire,
        hencoding, Option.mem_some, forall_eq', ← ofBase64_eq_utf8_iff]
      cases ofBase64 form.threshold <;> simp
  | lessThan =>
      simp only [buildCondition, chosen, typed, hcondition, SubscriptionCondition.ofWire,
        hencoding, Option.mem_some, forall_eq', ← ofBase64_eq_utf8_iff]
      cases ofBase64 form.threshold <;> simp

/-! ### The number of blocks -/

/-- The integer that a text `parseInt` reads stands for. -/
def sentInteger (neg : Bool) (n : ℕ) : SerdeJson.Number :=
  if n = 0 then .posInt 0 else if neg then .negInt n else .posInt n

theorem text_sentInteger (neg : Bool) (n : ℕ) :
  (sentInteger neg n).text
    = if n = 0 then ['0'] else (if neg then ['-'] else []) ++ Nat.toDigits 10 n
  := by
  rw [sentInteger]
  split_ifs <;> rfl

/-- The contract reads an integer when it is a natural number of 64 bits. -/
theorem readBlocks_of_text {neg neg' : Bool} {m n : ℕ}
    (htext : Js.numberText (.finite neg' m) = (sentInteger neg n).text) :
  (∃ blocks, readBlocks (some (.finite neg' m)) = some blocks)
    ↔ n = 0 ∨ (neg = false ∧ n < 2 ^ 64)
  := by
  have hparse : Json.parse (Js.numberText (.finite neg' m))
      = some (.num (sentInteger neg n).literal) := by
    rw [htext]
    apply SerdeJson.parse_number_text
    intro text
    rw [sentInteger]
    split_ifs <;> simp
  simp only [readBlocks, hparse]
  rw [sentInteger]
  split_ifs with hzero hneg
  · simp [SerdeJson.number_literal, hzero]
  · cases hnumber : SerdeJson.number (fun _ => none) (SerdeJson.Number.negInt n).literal with
    | none => simp [hzero, hneg]
    | some number =>
        cases number with
        | posInt k => exact absurd hnumber (SerdeJson.number_literal_ne_posInt _ n k)
        | _ => simp [hzero, hneg]
  · rcases Nat.lt_or_ge n (2 ^ 64) with hlt | hge
    · have hread : n = 0 ∨ n < 2 ^ 64 := .inr hlt
      simpa [SerdeJson.number_literal _ hlt, hneg] using hread
    · simp [SerdeJson.number_literal_of_ge hge, hzero]
      omega

/-- The contract reads the number that is sent exactly when it is one of those it can read. -/
theorem readBlocks_parseInt_iff (neg : Bool) {m : ℕ} (hm : 0 < m)
    (hexact : Binary64.Exact (.finite false m)) :
  (∃ blocks, readBlocks (some (Js.parseInt (Js.numberText (.finite neg m)) none)) = some blocks)
    ↔ ReadableNumber (.finite neg m)
  := by
  obtain ⟨m', hfinite, htext⟩ := Js.numberText_parseInt neg hm hexact
  rw [← text_sentInteger] at htext
  rw [hfinite, readBlocks_of_text htext, Js.truncated_eq_zero_iff hm hexact,
    Js.truncated_lt_iff hm hexact]
  cases neg with
  | true => simp [ReadableNumber, hm.ne']
  | false =>
      simp only [ReadableNumber, true_and, or_iff_right_iff_imp]
      intro h
      left
      apply h.2.trans_le (Nat.le_mul_of_pos_left _ (by decide))

theorem blocksReadable_iff (form : Form) :
  (∃ blocks, readBlocks (expiresAfterBlocks form) = some blocks) ↔ BlocksReadable form
  := by
  rw [expiresAfterBlocks, BlocksReadable]
  cases hfield : form.expiresAfter with
  | none => simp [readBlocks]
  | some x =>
      obtain ⟨x, hexact⟩ := x
      simp only [Option.mem_some, forall_eq']
      cases x with
      | nan => simp [truthy, readBlocks, ReadableNumber]
      | infinite neg =>
          have hnan : Js.parseInt (Js.numberText (.infinite neg)) none = .nan := by
            cases neg <;> decide
          simp [truthy, hnan, readBlocks, ReadableNumber]
      | finite neg m =>
          rcases Nat.eq_zero_or_pos m with rfl | hm
          · cases neg <;> simp [truthy, readBlocks, ReadableNumber, Binary64.one_pos]
          · have htruthy : truthy (.finite neg m) = true := by
              obtain ⟨m, rfl⟩ := Nat.exists_eq_succ_of_ne_zero hm.ne'
              rfl
            rw [if_pos htruthy]
            apply readBlocks_parseInt_iff neg hm hexact

/-! ### The form -/

/-- A form that can be sent makes a message unless its callback message cannot be encoded. -/
theorem handleSubmit_ok_iff {form : Form} (h : Ready form) {msg : SubscribeMsg} :
  handleSubmit true form = .ok msg
    ↔ ∃ s, Js.btoa (orElse form.callbackMsg "{}").toList = some s ∧
        subscribeMsg form (form.storeKey.getD "") (String.ofList s) = msg
  := by
  simp only [handleSubmit, if_neg h.clientId, if_neg h.storeKey, if_neg h.callbackContract,
    Bool.not_true, Bool.false_eq_true, if_false]
  cases Js.btoa (orElse form.callbackMsg "{}").toList <;> simp

theorem readSubscribe_iff {msg : SubscribeMsg} {clientId callbackContract : String}
    {keyPath : List String} {watchKey callbackMsg : Binary} {condition : SubscriptionCondition}
    {blocks : Option ℕ} :
  readSubscribe msg = some (.subscribe clientId keyPath watchKey condition callbackContract
      callbackMsg blocks)
    ↔ msg.clientId = clientId ∧ msg.keyPath = keyPath ∧ ofBase64 msg.watchKey = some watchKey ∧
      SubscriptionCondition.ofWire msg.condition = some condition ∧
      msg.callbackContract = callbackContract ∧ ofBase64 msg.callbackMsg = some callbackMsg ∧
      readBlocks msg.expiresAfterBlocks = some blocks
  := by
  simp only [readSubscribe, Option.bind_eq_bind, Option.bind_eq_some_iff, Option.some.injEq,
    Hub.ExecuteMsg.subscribe.injEq]
  constructor
  · rintro ⟨_, hkey, _, hcondition, _, hmsg, _, hblocks, rfl, rfl, rfl, rfl, rfl, rfl, rfl⟩
    use rfl, rfl, hkey, hcondition, rfl, hmsg
  · rintro ⟨rfl, rfl, hkey, hcondition, rfl, hmsg, hblocks⟩
    exact ⟨_, hkey, _, hcondition, _, hmsg, _, hblocks, rfl, rfl, rfl, rfl, rfl, rfl, rfl⟩

/-- The contract reads the callback message as typed when it is ASCII and not empty. -/
theorem callbackMsg_iff (form : Form) :
  (∃ s, Js.btoa (orElse form.callbackMsg "{}").toList = some s ∧
      Base64.decode s = some (utf8 form.callbackMsg))
    ↔ form.callbackMsg ≠ "" ∧ ∀ c ∈ form.callbackMsg.toList, c.toNat < 0x80
  := by
  by_cases hempty : form.callbackMsg = ""
  · -- an empty message is sent as `{}`
    have hbraces : (Js.btoa "{}".toList).bind Base64.decode = some (utf8 "{}") := by decide +kernel
    have hne : utf8 "{}" ≠ utf8 "" := by decide +kernel
    simp only [orElse, hempty, if_true, ne_eq, not_true_eq_false, false_and, iff_false]
    rintro ⟨s, hs, hdecode⟩
    rw [hs, Option.bind_some, hdecode, Option.some.injEq] at hbraces
    apply hne hbraces.symm
  · rw [orElse, if_neg hempty, utf8, btoa_iff]
    simp [hempty]

/-- A form that can be sent is stored as filled in when the contract reads the condition, the
callback message and the number of blocks. -/
theorem stored_iff_read {form : Form} (h : Ready form) :
  Stored form
    ↔ SubscriptionCondition.ofWire (buildCondition form) = some (chosen form) ∧
      (∃ s, Js.btoa (orElse form.callbackMsg "{}").toList = some s ∧
        Base64.decode s = some (utf8 form.callbackMsg)) ∧
      ∃ blocks, readBlocks (expiresAfterBlocks form) = some blocks
  := by
  constructor
  · rintro ⟨msg, watchKey, blocks, hsubmit, hread⟩
    obtain ⟨s, hs, rfl⟩ := (handleSubmit_ok_iff h).mp hsubmit
    obtain ⟨-, -, -, hcondition, -, hmsg, hblocks⟩ := readSubscribe_iff.mp hread
    rw [subscribeMsg, ofBase64, String.toList_ofList] at hmsg
    exact ⟨hcondition, ⟨s, hs, hmsg⟩, blocks, hblocks⟩
  · rintro ⟨hcondition, ⟨s, hs, hmsg⟩, blocks, hblocks⟩
    refine ⟨_, watchKeyBytes (form.storeKey.getD ""), blocks,
      (handleSubmit_ok_iff h).mpr ⟨s, hs, rfl⟩, readSubscribe_iff.mpr ?_⟩
    rw [subscribeMsg, ofBase64_toBase64, ofBase64, String.toList_ofList]
    use rfl, rfl, rfl, hcondition, rfl, hmsg

/-- A form that can be sent is stored as filled in exactly when no text was typed for the bytes of
its condition, the callback message is ASCII and not empty, and the field for the number of blocks
is empty or holds a number that can be read. -/
theorem stored_iff {form : Form} (h : Ready form) :
  Stored form
    ↔ (∀ s ∈ typed form, s = "") ∧
      (form.callbackMsg ≠ "" ∧ ∀ c ∈ form.callbackMsg.toList, c.toNat < 0x80) ∧
      BlocksReadable form
  := by
  rw [stored_iff_read h, callbackMsg_iff, ofWire_buildCondition_iff, blocksReadable_iff]

/-! ### A form -/

/-- A form for the values of a key above a thousand, and everything else as the modal proposes
it. -/
def sampleForm : Form where
  storeName := "wasm"
  storeKey := some "03aa"
  condition := .greaterThan
  threshold := "1000"
  encoding := .numeric
  expectedValue := ""
  jsonPath := ""
  jsonExpected := ""
  callbackContract := "cosmos1callback"
  callbackMsg := "\x7b\"custom_action\":\x7b\x7d\x7d"
  clientId := "07-tendermint-1119"
  expiresAfter := none

theorem sampleForm_ready :
  Ready sampleForm
  where
    clientId := by decide
    storeKey := by decide
    callbackContract := by decide

theorem stored_iff_sampleForm :
  Stored sampleForm
    ↔ (∀ s ∈ typed sampleForm, s = "") ∧
      (sampleForm.callbackMsg ≠ "" ∧ ∀ c ∈ sampleForm.callbackMsg.toList, c.toNat < 0x80) ∧
      BlocksReadable sampleForm
  := stored_iff sampleForm_ready

/-- The threshold typed as a thousand is stored as three bytes that the contract does not read as
a number. -/
theorem sampleForm_not_stored :
  ¬ Stored sampleForm ∧
    SubscriptionCondition.ofWire (buildCondition sampleForm)
      = some (.greaterThan [0xD7, 0x4D, 0x34] .numeric) ∧
    Hub.parseU128 [0xD7, 0x4D, 0x34] = .error (.valueDecodeError "not valid UTF-8")
  := by
  refine ⟨?_, rfl, rfl⟩
  intro h
  have hcondition := ((stored_iff_read sampleForm_ready).mp h).1
  have htyped := (ofWire_buildCondition_iff sampleForm).mp hcondition
  have := htyped "1000" rfl
  contradiction

end Explorer
