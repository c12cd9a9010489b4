import InterchainEvents.Platform.Trace
import InterchainEvents.Rust.Str
import InterchainEvents.Rust.JsonText
import InterchainEvents.Shared.Wire

/-!
# The attestation registry

Anyone may attest a status under an identifier. What was attested last is stored, under the bytes
of the identifier, as a JSON text (`Attestation.json`).

`contract` is what the platform sees. The contract sends no messages, so there is no reply to one.
-/

namespace Registry

open Shared

/-! ### Messages and storage -/

/-- Why the contract refuses. -/
inductive ContractError where
  | emptyId
  | emptyStatus
  deriving DecidableEq

/-- The text of an error. -/
def ContractError.message : ContractError → String
  | .emptyId => "Attestation ID cannot be empty"
  | .emptyStatus => "Status cannot be empty"

/-- The block an entry point runs in. -/
structure Env where
  height : UInt64

/-- Who sends a message. -/
structure MessageInfo where
  sender : String

/-- The messages of the contract. -/
inductive ExecuteMsg where
  | attest (id status : String)

/-- A call: a message and who sends it. -/
structure Call where
  info : MessageInfo
  msg : ExecuteMsg

/-- What an entry point answers: attributes. -/
structure Response where
  attributes : List (String × String)

/-- What is stored of an attestation. -/
structure Attestation where
  status : String
  attester : String
  height : UInt64
  deriving DecidableEq

/-- What is answered about an attestation. -/
structure AttestationResponse where
  id : String
  status : String
  attester : String
  height : UInt64
  deriving DecidableEq

/-- The storage: the attestations, under the bytes of their identifiers. -/
structure Storage where
  attestations : Std.ExtTreeMap Binary Attestation

/-- The storage after `instantiate`. -/
def Storage.initial : Storage := ⟨∅⟩

/-- The storage with an attestation saved under an identifier. -/
def Storage.save (s : Storage) (id : String) (attestation : Attestation) : Storage :=
  ⟨s.attestations.insert (utf8 id) attestation⟩

/-- The attestation stored under an identifier. -/
def Storage.load (s : Storage) (id : String) : Option Attestation :=
  s.attestations[utf8 id]?

/-! ### Entry points -/

/-- A computation on the storage that may fail. -/
abbrev M : Type → Type := ExceptT ContractError (StateM Storage)

/-- The answer of a computation begun on a storage, and the storage it leaves. -/
def M.runFrom {α : Type} (x : M α) (s : Storage) : Except ContractError α × Storage :=
  (ExceptT.run x).run s

/-- An attestation. -/
def executeAttest (env : Env) (info : MessageInfo) (id status : String) : M Response := do
  if id = "" then throw .emptyId
  if status = "" then throw .emptyStatus
  let attestation := { status, attester := info.sender, height := env.height }
  modify (·.save id attestation)
  pure ⟨[("action", "attest"), ("id", id), ("status", status), ("attester", info.sender)]⟩

/-- The messages of the contract. -/
def execute (env : Env) (info : MessageInfo) (msg : ExecuteMsg) : M Response :=
  match msg with
  | .attest id status => executeAttest env info id status

/-- The contract as the platform sees it. -/
def contract : Platform.Contract Storage Env Call Empty ContractError where
  execute env call s :=
    let (r, s') := (execute env call.info call.msg).runFrom s
    (r.map fun _ => none, s')
  reply _ _ _ s := (.ok (), s)

/-! ### Queries -/

/-- The answer about the attestation under an identifier, if there is one. -/
def queryAttestation (s : Storage) (id : String) : Option AttestationResponse :=
  (s.load id).map fun attestation =>
    ⟨id, attestation.status, attestation.attester, attestation.height⟩

/-- The entries in the order of their keys, with these. -/
def Storage.range (s : Storage) (startAfter : Option String) : List (Binary × Attestation) :=
  s.attestations.toList.filter fun e =>
    match startAfter with
    | none => true
    | some id => decide (utf8 id < e.1)

/-- An entry as it is listed, if its key is a text. -/
def listed (e : Binary × Attestation) : Option AttestationResponse :=
  (Utf8.decode? e.1).map fun id =>
    ⟨String.ofList id, e.2.status, e.2.attester, e.2.height⟩

/-- A page of the attestations, or nothing if a key is not a text. -/
def queryListAttestations (s : Storage) (startAfter : Option String) (limit : Option ℕ) :
    Option (List AttestationResponse) :=
  ((s.range startAfter).take (min (limit.getD 30) 100)).mapM listed

/-! ### What is stored -/

/-- An attestation as a JSON value, its members in the order of the fields. -/
def Attestation.value (a : Attestation) : SerdeJson.Value :=
  .object [("status".toList, .string a.status.toList),
    ("attester".toList, .string a.attester.toList),
    ("height".toList, .number (.posInt a.height.toNat))]

/-- The bytes that are stored for an attestation, `esc` writing the characters of strings. -/
def Attestation.json (esc : Char → List Char) (a : Attestation) : Binary :=
  Utf8.encode (a.value.renderWith esc)

/-- The bytes that are stored under an identifier. -/
def Storage.raw (esc : Char → List Char) (s : Storage) (id : String) : Option Binary :=
  (s.load id).map (Attestation.json esc)

/-! ### The storage -/

theorem utf8_injective {id id' : String} (h : utf8 id = utf8 id') :
  id = id'
  := String.toList_inj.mp (Utf8.encode_injective h)

@[simp]
theorem Storage.load_initial (id : String) :
  Storage.initial.load id = none
  := Std.ExtTreeMap.getElem?_empty

theorem Storage.load_save (s : Storage) (id id' : String) (attestation : Attestation) :
  (s.save id attestation).load id' = if id = id' then some attestation else s.load id'
  := by
  rw [load, save, Std.ExtTreeMap.getElem?_insert]
  by_cases h : id = id'
  · subst h
    simp
  · have hne : utf8 id ≠ utf8 id' := fun heq => h (utf8_injective heq)
    simp [h, hne, load]

/-! ### What an attestation does -/

/-- The answers to an attestation, and the storages left. -/
inductive AttestOutcome (env : Env) (s : Storage) (info : MessageInfo) (id status : String) :
    Except ContractError Response × Storage → Prop
  | emptyId : id = "" → AttestOutcome env s info id status (.error .emptyId, s)
  | emptyStatus : id ≠ "" → status = "" →
      AttestOutcome env s info id status (.error .emptyStatus, s)
  | attested : id ≠ "" → status ≠ "" →
      AttestOutcome env s info id status
        (.ok ⟨[("action", "attest"), ("id", id), ("status", status), ("attester", info.sender)]⟩,
          s.save id ⟨status, info.sender, env.height⟩)

theorem executeAttest_outcome (env : Env) (s : Storage) (info : MessageInfo)
    (id status : String) :
  AttestOutcome env s info id status ((executeAttest env info id status).runFrom s)
  := by
  unfold executeAttest
  by_cases hid : id = ""
  · rw [if_pos hid]
    apply AttestOutcome.emptyId hid
  · rw [if_neg hid]
    by_cases hstatus : status = ""
    · rw [if_pos hstatus]
      apply AttestOutcome.emptyStatus hid hstatus
    · rw [if_neg hstatus]
      apply AttestOutcome.attested hid hstatus

/-- A call that succeeds saves an attestation, and asks for no message. -/
theorem contract_execute_ok {env : Env} {call : Call} {s s' : Storage}
    {r : Option (Platform.SubMsg Empty)} (h : contract.execute env call s = (.ok r, s')) :
  ∃ id status, call.msg = .attest id status ∧ id ≠ "" ∧ status ≠ "" ∧ r = none ∧
    s' = s.save id ⟨status, call.info.sender, env.height⟩
  := by
  obtain ⟨info, id, status⟩ := call
  have hout := executeAttest_outcome env s info id status
  simp only [contract, execute] at h
  generalize (executeAttest env info id status).runFrom s = o at h hout
  cases hout with
  | attested hid hstatus =>
      simp only [Except.map, Prod.mk.injEq, Except.ok.injEq] at h
      exact ⟨id, status, rfl, hid, hstatus, h.1.symm, h.2.symm⟩
  | _ => simp [Except.map] at h

/-- An attestation with an identifier and a status is saved. -/
theorem contract_execute_attest (env : Env) (info : MessageInfo) {id status : String}
    (hid : id ≠ "") (hstatus : status ≠ "") (s : Storage) :
  contract.execute env ⟨info, .attest id status⟩ s
    = (.ok none, s.save id ⟨status, info.sender, env.height⟩)
  := by
  have hout := executeAttest_outcome env s info id status
  simp only [contract, execute]
  generalize (executeAttest env info id status).runFrom s = o at hout
  cases hout with
  | emptyId h => exact absurd h hid
  | emptyStatus _ h => exact absurd h hstatus
  | attested => rfl

/-- An attestation without an identifier or without a status is refused, and saves nothing. -/
theorem contract_execute_empty {id status : String} (h : id = "" ∨ status = "") (env : Env)
    (info : MessageInfo) (s : Storage) :
  ∃ e, contract.execute env ⟨info, .attest id status⟩ s = (.error e, s)
  := by
  have hout := executeAttest_outcome env s info id status
  simp only [contract, execute]
  generalize (executeAttest env info id status).runFrom s = o at hout
  cases hout with
  | emptyId => exact ⟨_, rfl⟩
  | emptyStatus => exact ⟨_, rfl⟩
  | attested hid hstatus => exact (h.elim hid hstatus).elim

end Registry
