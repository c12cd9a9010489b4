import InterchainEvents.Hub.Invariant
import InterchainEvents.ProofCallback.Contract

/-!
# What the callback contract is told

The hub contract writes the message to the callback as an untyped JSON value, and the callback
contract reads a typed one. The number of the subscription, the height and the message of the
subscriber arrive as they were (`fromJson_callbackOf`). The proven value arrives as a text, in
which what is not UTF-8 was replaced by U+FFFD: so it arrives as it was exactly when it is UTF-8,
and what arrives tells it from all other values exactly when it is UTF-8 without U+FFFD
(`payload_carries_iff`).
-/

namespace ProofCallback

open Shared Hub

/-- The fields of the message, as the hub contract writes them. -/
def payloadMembers (id : ℕ) (value : Binary) (height : Height) (callbackMsg : Binary) :
    List (Json.Str × Json.Doc) :=
  [(Json.str "callback_msg", .str (Utf16.encode (Base64.encode callbackMsg))),
    (Json.str "height", heightDoc height),
    (Json.str "proven_value", .str (Utf16.encode (Utf8.decodeLossy value))),
    (Json.str "subscription_id", .num (SerdeJson.Number.posInt id).literal)]

theorem doc_callbackPayload (id : ℕ) (value : Binary) (height : Height) (callbackMsg : Binary) :
  (callbackPayload id value height callbackMsg).doc
    = .obj [(Json.str "interchain_event",
        .obj (payloadMembers id value height callbackMsg))]
  := rfl

/-- The fields of the message are all there, once each. -/
theorem names_payloadMembers (id : ℕ) (value : Binary) (height : Height) (callbackMsg : Binary) :
  ((payloadMembers id value height callbackMsg).map Prod.fst).Nodup ∧
    ((payloadMembers id value height callbackMsg).map Prod.fst).Perm
      (["subscription_id", "proven_value", "height", "callback_msg"].map Json.str)
  := by
  simp only [payloadMembers, List.map_cons, List.map_nil]
  decide

/-- What the hub contract sends is read as the message it stands for. -/
theorem fromJson_callbackOf {id : ℕ} {height : Height} {sub : Subscription} (hid : id < 2 ^ 64)
    (hnumber : height.revisionNumber < 2 ^ 64) (hheight : height.revisionHeight < 2 ^ 64)
    (value : Binary) :
  ExecuteMsg.fromJson (callbackOf id height value sub).payload.msg
    = some (.interchainEvent id (String.ofList (Utf8.decodeLossy value)) height sub.callbackMsg)
  := by
  have hexact : (callbackPayload id value height sub.callbackMsg).Exact := by
    simp [callbackPayload, SerdeJson.Value.Exact, SerdeJson.exactMembers]
  have hread : ExecuteMsg.fromJson (callbackOf id height value sub).payload.msg
      = ExecuteMsg.ofDoc (callbackPayload id value height sub.callbackMsg).doc := by
    simp only [ExecuteMsg.fromJson, callbackOf, Utf8.decode?_encode, Option.bind_some,
      SerdeJson.parse_render hexact]
  obtain ⟨hnodup, hperm⟩ := names_payloadMembers id value height sub.callbackMsg
  have hid' : field "subscription_id" readU64 (payloadMembers id value height sub.callbackMsg)
      = some id := by
    rw [field_of_mem readU64 hnodup (d := .num (SerdeJson.Number.posInt id).literal)
      (by simp [payloadMembers]), readU64_literal hid]
  have hvalue : field "proven_value" readString (payloadMembers id value height sub.callbackMsg)
      = some (String.ofList (Utf8.decodeLossy value)) := by
    rw [field_of_mem readString hnodup (d := .str (Utf16.encode (Utf8.decodeLossy value)))
      (by simp [payloadMembers]), readString_encode]
  have hheight' : field "height" readHeight (payloadMembers id value height sub.callbackMsg)
      = some height := by
    rw [field_of_mem readHeight hnodup (d := heightDoc height) (by simp [payloadMembers]),
      readHeight_heightDoc hnumber hheight]
  have hmsg : field "callback_msg" readBinary (payloadMembers id value height sub.callbackMsg)
      = some sub.callbackMsg := by
    rw [field_of_mem readBinary hnodup
      (d := .str (Utf16.encode (Base64.encode sub.callbackMsg))) (by simp [payloadMembers]),
      readBinary_encode]
  rw [hread, doc_callbackPayload]
  simp only [ExecuteMsg.ofDoc, Option.bind_eq_bind]
  rw [fields, if_pos (by simp), Option.bind_some, field_of_mem _ (by simp) List.mem_cons_self,
    Option.bind_some, fields, if_pos hperm, Option.bind_some, hid', Option.bind_some, hvalue,
    Option.bind_some, hheight', Option.bind_some, hmsg, Option.bind_some]

/-- The text that stands for a value has the bytes of the value exactly when these are UTF-8. -/
theorem encode_decodeLossy_eq_iff {value : Binary} :
  Utf8.encode (Utf8.decodeLossy value) = value ↔ ∃ cs, value = Utf8.encode cs
  := by
  constructor
  · intro h
    use Utf8.decodeLossy value
    rw [h]
  · rintro ⟨cs, rfl⟩
    rw [Utf8.decodeLossy_encode]

/-- Two values lead to one message exactly when the same text stands for both. -/
theorem callbackOf_msg_eq_iff {id : ℕ} {height : Height} {sub : Subscription} (hid : id < 2 ^ 64)
    (hnumber : height.revisionNumber < 2 ^ 64) (hheight : height.revisionHeight < 2 ^ 64)
    (value value' : Binary) :
  (callbackOf id height value' sub).payload.msg = (callbackOf id height value sub).payload.msg
    ↔ Utf8.decodeLossy value' = Utf8.decodeLossy value
  := by
  constructor
  · intro hmsg
    have hread := congrArg ExecuteMsg.fromJson hmsg
    rw [fromJson_callbackOf hid hnumber hheight, fromJson_callbackOf hid hnumber hheight,
      Option.some.injEq, ExecuteMsg.interchainEvent.injEq, String.ofList_inj] at hread
    apply hread.2.1
  · intro htext
    simp only [callbackOf, callbackPayload, htext]

/-- A value arrives as it was, and no other value arrives as the same message, exactly when the
value is UTF-8 without U+FFFD. -/
theorem arrives_alone_iff {id : ℕ} {height : Height} {sub : Subscription} (hid : id < 2 ^ 64)
    (hnumber : height.revisionNumber < 2 ^ 64) (hheight : height.revisionHeight < 2 ^ 64)
    (value : Binary) :
  (Utf8.encode (Utf8.decodeLossy value) = value ∧
      ∀ value', (callbackOf id height value' sub).payload.msg
        = (callbackOf id height value sub).payload.msg → value' = value)
    ↔ ∃ cs, value = Utf8.encode cs ∧ Utf8.replacement ∉ cs
  := by
  simp only [callbackOf_msg_eq_iff hid hnumber hheight, encode_decodeLossy_eq_iff]
  constructor
  · rintro ⟨⟨cs, rfl⟩, halone⟩
    use cs, rfl
    apply Utf8.decodeLossy_unique_iff.mp
    intro bs hbs
    apply halone bs
    rw [hbs, Utf8.decodeLossy_encode]
  · rintro ⟨cs, rfl, hcs⟩
    use ⟨cs, rfl⟩
    intro value' hvalue'
    rw [Utf8.decodeLossy_encode] at hvalue'
    apply (Utf8.decodeLossy_eq_iff hcs).mp hvalue'

/-- **The callback is told what was proven, if that is a text.** A proof that is accepted leads
to a message to the callback contract of the subscription, which reads the number of the
subscription, the height and the message of the subscriber as they were. It reads a proven value
with the bytes that were proven if and only if these are UTF-8; it does so, and no other value of
any bytes leads to the same message, if and only if they are UTF-8 without U+FFFD. -/
theorem payload_carries_iff (lib : Libraries) {env : Env} {s : Storage} {id : ℕ} {height : Height}
    {appHash proof key value : Binary} {r : Response} (hid : id < 2 ^ 64)
    (hnumber : height.revisionNumber < 2 ^ 64) (hheight : height.revisionHeight < 2 ^ 64)
    (hok : ((executeSubmitProof lib env id height appHash proof key value).runFrom s).1 = .ok r) :
  ∃ sub callback provenValue, s.load id = some sub ∧ r.subMsg = some callback ∧
    callback.payload.contractAddr = sub.callbackContract ∧
    ExecuteMsg.fromJson callback.payload.msg
      = some (.interchainEvent id provenValue height sub.callbackMsg) ∧
    (Utf8.encode provenValue.toList = value ↔ ∃ cs, value = Utf8.encode cs) ∧
    ((Utf8.encode provenValue.toList = value ∧
        ∀ value', (callbackOf id height value' sub).payload.msg = callback.payload.msg →
          value' = value)
      ↔ ∃ cs, value = Utf8.encode cs ∧ Utf8.replacement ∉ cs)
  := by
  have hout := executeSubmitProof_outcome lib env s id height appHash proof key value
  generalize (executeSubmitProof lib env id height appHash proof key value).runFrom s = o
    at hok hout
  cases hout with
  | @accepted sub hload htriggers =>
      obtain rfl := Except.ok.inj hok
      refine ⟨sub, callbackOf id height value sub, String.ofList (Utf8.decodeLossy value), hload,
        rfl, rfl, fromJson_callbackOf hid hnumber hheight value, ?_, ?_⟩
      · rw [String.toList_ofList]
        apply encode_decodeLossy_eq_iff
      · rw [String.toList_ofList]
        apply arrives_alone_iff hid hnumber hheight
  | _ => cases hok

theorem payload_carries_iff_sample :
  ∃ r callback provenValue,
    ((executeSubmitProof .sample ⟨20⟩ 1 ⟨2, 100⟩ sampleAppHash sampleProof [1] [0x37]).runFrom
      (committed .sample [sampleSubscription])).1 = .ok r ∧
    r.subMsg = some callback ∧
    ExecuteMsg.fromJson callback.payload.msg
      = some (.interchainEvent 1 provenValue ⟨2, 100⟩ sampleSubscribed.callbackMsg) ∧
    Utf8.encode provenValue.toList = [0x37] ∧
    ∀ value', (callbackOf 1 ⟨2, 100⟩ value' sampleSubscribed).payload.msg = callback.payload.msg →
      value' = [0x37]
  := by
  have hload : (committed .sample [sampleSubscription]).load 1 = some sampleSubscribed := by decide
  obtain ⟨r, hok⟩ := (executeSubmitProof_ok_iff .sample ⟨20⟩ _ 1 ⟨2, 100⟩ sampleAppHash sampleProof
    [1] [0x37]).mpr ⟨sampleSubscribed, hload, sample_triggers⟩
  obtain ⟨sub, callback, provenValue, hload', hr, -, hmsg, -, halone⟩ :=
    payload_carries_iff .sample (by decide) (by decide) (by decide) hok
  obtain rfl := Storage.load_unique hload hload'
  obtain ⟨hvalue, hunique⟩ := halone.mpr ⟨['7'], by decide, by decide⟩
  exact ⟨r, callback, provenValue, hok, hr, hmsg, hvalue, hunique⟩

/-! ### A value that is no text -/

/-- A proof of the value `FF` under the key `01`, by one leaf. -/
def binaryIavl : Binary :=
  [0x0A, 0x13, 0x0A, 0x01, 0x01, 0x12, 0x01, 0xFF, 0x1A, 0x0B, 0x08, 0x01, 0x18, 0x01, 0x20,
   0x01, 0x2A, 0x03, 0x00, 0x02, 0x02]

/-- The root of the tree of that leaf. -/
def binaryModuleRoot : Binary :=
  [0xD5, 0x94, 0x08, 0x3E, 0x27, 0x7D, 0x50, 0xB1, 0xC4, 0xB4, 0x2F, 0x8B, 0xF3, 0xED, 0x36,
   0xAB, 0xD9, 0x9F, 0x55, 0xD5, 0x35, 0x98, 0xFF, 0x33, 0x7D, 0x56, 0x1B, 0x9A, 0xD1, 0x56,
   0xB9, 0x2E]

/-- A proof of that root under the name `wasm`, by one leaf. -/
def binarySimple : Binary :=
  [0x0A, 0x33, 0x0A, 0x04, 0x77, 0x61, 0x73, 0x6D, 0x12, 0x20] ++ binaryModuleRoot
    ++ [0x1A, 0x09, 0x08, 0x01, 0x18, 0x01, 0x20, 0x01, 0x2A, 0x01, 0x00]

/-- The root of the tree of that leaf. -/
def binaryAppHash : Binary :=
  [0x6F, 0xA1, 0x4A, 0xEF, 0x51, 0x39, 0xA6, 0x86, 0x9A, 0x89, 0xDF, 0x69, 0x95, 0x09, 0x87,
   0x24, 0xD7, 0x01, 0x00, 0x39, 0xBC, 0x1A, 0x2D, 0x93, 0x5D, 0x25, 0xEA, 0xAB, 0xA2, 0xA3,
   0x44, 0xAD]

/-- The message with both proofs. -/
def binaryProof : Binary :=
  [0x0A, 0x15] ++ binaryIavl ++ [0x0A, 0x35] ++ binarySimple

/-- Libraries that know these proofs and no others. -/
def binaryLibraries : Libraries where
  CommitmentProof := ProofSpec
  ExistenceProof := ProofSpec
  decodeMerkleProof bytes :=
    if bytes = binaryProof then .ok [binaryIavl, binarySimple]
    else .error "failed to decode Protobuf message"
  decodeCommitmentProof bytes :=
    if bytes = binaryIavl then .ok .iavl
    else if bytes = binarySimple then .ok .tendermint
    else .error "failed to decode Protobuf message"
  exist := some
  calculateExistenceRoot
    | .iavl => .ok binaryModuleRoot
    | .tendermint => .ok binaryAppHash
  verifyMembership
    | .iavl, .iavl, root, key, value => root = binaryModuleRoot && key = [1] && value = [0xFF]
    | .tendermint, .tendermint, root, key, value =>
        root = binaryAppHash && key = [0x77, 0x61, 0x73, 0x6D] && value = binaryModuleRoot
    | _, _, _, _, _ => false
  float _ := none
  jsonError _ := "expected value at line 1 column 1"
  kind _ := "type: Subscription"

/-- The subscription to the key `01` for any value. -/
def binarySubscribed : Subscription :=
  { sampleSubscribed with condition := .exists }

/-- The transaction that makes it. -/
def binarySubscription : Tx :=
  .message ⟨10⟩
    ⟨⟨"alice"⟩, .subscribe "07-tendermint-42" ["wasm"] [1] .exists "callback" [] none⟩
    (fun _ => .succeed) (fun _ => "")

/-- The value `FF` is proven and arrives as the bytes of U+FFFD, with the same message as if these
bytes had been proven. -/
theorem binaryValue_garbled :
  ((contract binaryLibraries).execute ⟨20⟩
      ⟨⟨"bob"⟩, .submitProof 1 ⟨2, 100⟩ binaryAppHash binaryProof [1] [0xFF]⟩
      (committed binaryLibraries [binarySubscription])).1
    = .ok (some (callbackOf 1 ⟨2, 100⟩ [0xFF] binarySubscribed)) ∧
    ExecuteMsg.fromJson (callbackOf 1 ⟨2, 100⟩ [0xFF] binarySubscribed).payload.msg
      = some (.interchainEvent 1 "\uFFFD" ⟨2, 100⟩ []) ∧
    Utf8.encode "\uFFFD".toList ≠ [0xFF] ∧
    callbackOf 1 ⟨2, 100⟩ [0xEF, 0xBF, 0xBD] binarySubscribed
      = callbackOf 1 ⟨2, 100⟩ [0xFF] binarySubscribed
  := by
  have hload : (committed binaryLibraries [binarySubscription]).load 1 = some binarySubscribed := by
    decide
  have htriggers : Triggers binaryLibraries 20 binarySubscribed binaryAppHash binaryProof [1]
      [0xFF] := {
    active := rfl
    unexpired := rfl
    key_eq := rfl
    proven := by decide +kernel
    met := rfl }
  have hlossy : Utf8.decodeLossy [0xFF] = ['\uFFFD'] := by decide
  refine ⟨?_, ?_, by decide, ?_⟩
  · rw [contract_execute_of_triggers ⟨"bob"⟩ hload htriggers ⟨2, 100⟩]
  · rw [fromJson_callbackOf (by decide) (by decide) (by decide), hlossy]
    rfl
  · have hlossy' : Utf8.decodeLossy [0xEF, 0xBF, 0xBD] = ['\uFFFD'] := by decide
    simp only [callbackOf, callbackPayload, hlossy, hlossy']

end ProofCallback
