import InterchainEvents.Hub.Invariant
import InterchainEvents.Registry.Run

/-!
# Conditions on attestations

The hub contract reads what the registry has stored, whatever the texts in it are: a condition
on one of the fields holds exactly of the text of that field. So a condition on an attestation
is decided by what was attested last (`attestation_condition`).
-/

namespace Registry

open Shared Platform

variable {esc : Char → List Char}

/-! ### What the hub contract reads -/

/-- The members of the document of an attestation. -/
def Attestation.fields (a : Attestation) : List (Json.Str × Json.Doc) :=
  [(Utf16.encode "status".toList, .str (Utf16.encode a.status.toList)),
    (Utf16.encode "attester".toList, .str (Utf16.encode a.attester.toList)),
    (Utf16.encode "height".toList, .num (SerdeJson.Number.posInt a.height.toNat).literal)]

theorem doc_value (a : Attestation) :
  a.value.doc = .obj a.fields
  := rfl

theorem ofDoc_value (float : Json.NumLit → Option (List Char)) (a : Attestation) :
  ∃ v, SerdeJson.ofDoc float a.value.doc = some v
  := by
  have hstring (s : List Char) : SerdeJson.string (Utf16.encode s) = some s :=
    SerdeJson.string_eq_some_iff.mpr rfl
  rw [doc_value, Attestation.fields]
  simp only [SerdeJson.ofDoc, SerdeJson.ofMembers, hstring, Option.bind_some, Option.map_some,
    SerdeJson.number_literal float a.height.toNat_lt]
  exact ⟨_, rfl⟩

/-- The bytes that are stored are read, and each field from the member of its name. -/
theorem fromSlice_json (hesc : SerdeJson.Standard esc)
    (float : Json.NumLit → Option (List Char)) (a : Attestation) :
  ∃ v, SerdeJson.fromSlice float (a.json esc) = some v ∧
    v.get "status".toList = some (.string a.status.toList) ∧
    v.get "attester".toList = some (.string a.attester.toList) ∧
    v.get "height".toList = some (.number (.posInt a.height.toNat))
  := by
  obtain ⟨v, hv⟩ := ofDoc_value float a
  have hexact : a.value.Exact := by simp [Attestation.value, SerdeJson.Value.Exact,
    SerdeJson.exactMembers]
  have hdepth : a.value.doc.depth < 128 := by
    simp [doc_value, Attestation.fields, Json.Doc.depth, Json.depthMembers]
  have hnodup : (a.fields.map Prod.fst).Nodup := by
    simp only [Attestation.fields, List.map_cons, List.map_nil]
    decide
  have hget {name : String} {d : Json.Doc} (hmem : (Utf16.encode name.toList, d) ∈ a.fields) :
      v.get name.toList = SerdeJson.ofDoc float d := by
    rw [SerdeJson.get_ofDoc hv, doc_value, Json.Doc.get?, Json.member_of_mem hnodup hmem]
    rfl
  refine ⟨v, ?_, ?_, ?_, ?_⟩
  · rw [SerdeJson.fromSlice, Attestation.json, Utf8.decode?_encode, Option.bind_some,
      SerdeJson.parse_renderWith hesc hexact, Option.bind_some, if_pos hdepth, hv]
  · rw [hget (List.mem_cons_self), SerdeJson.ofDoc, SerdeJson.string_eq_some_iff.mpr rfl,
      Option.map_some]
  · rw [hget (List.mem_cons_of_mem _ List.mem_cons_self), SerdeJson.ofDoc,
      SerdeJson.string_eq_some_iff.mpr rfl, Option.map_some]
  · rw [hget (List.mem_cons_of_mem _ (List.mem_cons_of_mem _ List.mem_cons_self)),
      SerdeJson.ofDoc, SerdeJson.number_literal float a.height.toNat_lt, Option.map_some]

/-- A condition on a member of a JSON value is one on the text of that member. -/
theorem checkValue_of_get {lib : Hub.Libraries} {raw : Binary} {v w : SerdeJson.Value}
    (hraw : SerdeJson.fromSlice lib.float raw = some v) {name : String}
    (hname : name.toList.splitOn '.' = [name.toList]) (hget : v.get name.toList = some w)
    (expected : String) :
  Hub.checkValue lib (.jsonPathEquals name expected) raw = .ok ()
    ↔ Hub.plainText w = expected.toList
  := by
  simp only [Hub.checkValue, hraw, hname, Hub.walk, hget, bind, Except.bind]
  split_ifs with h
  · simpa using h
  · simpa using h

/-! ### Conditions on what was attested last -/

/-- A condition with a path is met by bytes, as the hub contract reads them. -/
def Meets (lib : Hub.Libraries) (path expected : String) (raw : Binary) : Prop :=
  Hub.checkValue lib (.jsonPathEquals path expected) raw = .ok ()

/-- The bytes of an attestation meet a condition on a field exactly if it expects the text of that
field. -/
theorem meets_json_iff (lib : Hub.Libraries) (hesc : SerdeJson.Standard esc) (a : Attestation)
    (expected : String) :
  (Meets lib "status" expected (a.json esc) ↔ expected = a.status) ∧
    (Meets lib "attester" expected (a.json esc) ↔ expected = a.attester) ∧
    (Meets lib "height" expected (a.json esc) ↔ expected = toString a.height.toNat)
  := by
  obtain ⟨v, hv, hstatus, hattester, hheight⟩ := fromSlice_json hesc lib.float a
  refine ⟨?_, ?_, ?_⟩
  · rw [Meets, checkValue_of_get hv (by decide) hstatus, Hub.plainText, String.toList_inj, eq_comm]
  · rw [Meets, checkValue_of_get hv (by decide) hattester, Hub.plainText, String.toList_inj,
      eq_comm]
  · have htext : Nat.toDigits 10 a.height.toNat = (toString a.height.toNat).toList :=
      Nat.toList_repr.symm
    rw [Meets, checkValue_of_get hv (by decide) hheight, Hub.plainText, SerdeJson.Number.text,
      htext, String.toList_inj, eq_comm]

/-- **From attestation to condition.** Take any run, and a serializer that writes the characters of
strings in any of the ways of JSON. The bytes that are stored under an identifier that was attested
meet a condition on the status, the attester or the height exactly if it expects what was attested
last. An attestation that is refused for an empty identifier or status changes nothing, and neither
do transactions that attest nothing under the identifier. -/
theorem attestation_condition (lib : Hub.Libraries) (hesc : SerdeJson.Standard esc) :
  (∀ (txs : List Tx) (id : String) (a : Attestation), lastAttest (log txs) id = some a →
    ∃ raw, (committed txs).raw esc id = some raw ∧ ∀ expected,
      (Meets lib "status" expected raw ↔ expected = a.status) ∧
      (Meets lib "attester" expected raw ↔ expected = a.attester) ∧
      (Meets lib "height" expected raw ↔ expected = toString a.height.toNat)) ∧
    (∀ (txs : List Tx) (env : Env) (info : MessageInfo) (id status : String)
        (callback : SubMsg Empty → Script Storage Call Empty ContractError)
        (text : ContractError → String),
      id = "" ∨ status = "" →
        (∀ s, ∃ e, contract.execute env ⟨info, .attest id status⟩ s = (.error e, s)) ∧
        committed (txs ++ [.message env ⟨info, .attest id status⟩ callback text])
          = committed txs) ∧
    ∀ (txs txs' : List Tx) (id : String),
      (∀ r ∈ (contract.history txs' (committed txs)).2, ∀ a, attested r ≠ some (id, a)) →
        (committed (txs ++ txs')).raw esc id = (committed txs).raw esc id
  := by
  refine ⟨?_, ?_, ?_⟩
  · intro txs id a ha
    use a.json esc
    constructor
    · rw [Storage.raw, load_committed, ha, Option.map_some]
    · apply meets_json_iff lib hesc a
  · intro txs env info id status callback text h
    use contract_execute_empty h env info
    apply committed_append_empty h
  · intro txs txs' id h
    rw [Storage.raw, Storage.raw, load_committed_append h]

/-- A transaction with an attestation at block 7. -/
def sampleAttest (id status : String) : Tx :=
  .message ⟨7⟩ ⟨⟨"alice"⟩, .attest id status⟩ (fun _ => .succeed) ContractError.message

theorem attestation_condition_sample :
  (∃ raw, (committed [sampleAttest "kyc" "a\"b\\c\n"]).raw SerdeJson.escape "kyc" = some raw ∧
      Meets .sample "status" "a\"b\\c\n" raw ∧ ¬ Meets .sample "status" "approved" raw ∧
      Meets .sample "attester" "alice" raw ∧ Meets .sample "height" "7" raw) ∧
    committed ([] ++ [sampleAttest "kyc" ""]) = committed [] ∧
    (committed ([sampleAttest "kyc" "ok"] ++ [sampleAttest "aml" "no"])).raw SerdeJson.escape "kyc"
      = (committed [sampleAttest "kyc" "ok"]).raw SerdeJson.escape "kyc"
  := by
  have h := attestation_condition .sample SerdeJson.standard_escape
  refine ⟨?_, ?_, ?_⟩
  · obtain ⟨raw, hraw, hmeets⟩ := h.1 [sampleAttest "kyc" "a\"b\\c\n"] "kyc" _ rfl
    refine ⟨raw, hraw, (hmeets _).1.mpr rfl, ?_, (hmeets _).2.1.mpr rfl, (hmeets _).2.2.mpr rfl⟩
    rw [(hmeets _).1]
    decide
  · apply (h.2.1 [] ⟨7⟩ ⟨"alice"⟩ "kyc" "" _ _ (.inr rfl)).2
  · apply h.2.2
    intro r hr a hattested
    obtain rfl := List.mem_singleton.mp hr
    have hid : "aml" = "kyc" := (Prod.mk.inj (Option.some.inj hattested)).1
    contradiction

end Registry
