import InterchainEvents.Hub.Contract
import InterchainEvents.Rust.JsonText

/-!
# The callback contract

It has one message, which it reads from JSON: an object with the one member `interchain_event`,
whose fields must be all there, once each and no others, in any order. It records who sent the
message and when, and shows what was proven.
-/

namespace ProofCallback

open Shared

/-! ### Messages -/

/-- The messages of the contract. -/
inductive ExecuteMsg where
  | interchainEvent (subscriptionId : ℕ) (provenValue : String) (height : Height)
      (callbackMsg : Binary)
  deriving DecidableEq

/-- The members of an object with exactly these fields, each once. -/
def fields (names : List String) : Json.Doc → Option (List (Json.Str × Json.Doc))
  | .obj members =>
      if (members.map Prod.fst).Perm (names.map Json.str) then some members else none
  | _ => none

/-- The value of a field that is read somehow. -/
def field {α : Type} (name : String) (read : Json.Doc → Option α)
    (members : List (Json.Str × Json.Doc)) : Option α :=
  (Json.member (Json.str name) members).bind read

/-- An integer of 64 bits. -/
def readU64 : Json.Doc → Option ℕ
  | .num l =>
      match SerdeJson.number (fun _ => none) l with
      | some (.posInt n) => some n
      | _ => none
  | _ => none

/-- A text. -/
def readString : Json.Doc → Option String
  | .str s => (SerdeJson.string s).map String.ofList
  | _ => none

/-- Bytes, which are written in base64. -/
def readBinary (d : Json.Doc) : Option Binary :=
  (readString d).bind fun s => Base64.decode s.toList

/-- A height. -/
def readHeight (d : Json.Doc) : Option Height := do
  let members ← fields ["revision_number", "revision_height"] d
  let revisionNumber ← field "revision_number" readU64 members
  let revisionHeight ← field "revision_height" readU64 members
  some ⟨revisionNumber, revisionHeight⟩

/-- The message a document is. -/
def ExecuteMsg.ofDoc (d : Json.Doc) : Option ExecuteMsg := do
  let variant ← fields ["interchain_event"] d
  let content ← field "interchain_event" some variant
  let members ← fields ["subscription_id", "proven_value", "height", "callback_msg"] content
  let subscriptionId ← field "subscription_id" readU64 members
  let provenValue ← field "proven_value" readString members
  let height ← field "height" readHeight members
  let callbackMsg ← field "callback_msg" readBinary members
  some (.interchainEvent subscriptionId provenValue height callbackMsg)

/-- The message written in the bytes. -/
def ExecuteMsg.fromJson (bytes : Binary) : Option ExecuteMsg :=
  (Utf8.decode? bytes).bind fun cs => (Json.parse cs).bind ExecuteMsg.ofDoc

/-! ### The entry point -/

/-- A recorded message: who sent it, and at which height. -/
structure Event where
  caller : String
  blockHeight : ℕ
  deriving DecidableEq

/-- The answer to a message, and the events recorded after it. -/
def execute (env : Hub.Env) (info : Hub.MessageInfo) (msg : ExecuteMsg) (events : List Event) :
    List (String × String) × List Event :=
  match msg with
  | .interchainEvent subscriptionId provenValue height _ =>
      ([("action", "interchain_event"), ("caller", info.sender),
          ("subscription_id", toString subscriptionId), ("proven_value", provenValue),
          ("height_revision", toString height.revisionNumber),
          ("height_block", toString height.revisionHeight)],
        events ++ [⟨info.sender, env.height⟩])

/-! ### Reading what was written -/

theorem readU64_literal {n : ℕ} (hn : n < 2 ^ 64) :
  readU64 (.num (SerdeJson.Number.posInt n).literal) = some n
  := by
  rw [readU64, SerdeJson.number_literal _ hn]

theorem readString_encode (cs : List Char) :
  readString (.str (Utf16.encode cs)) = some (String.ofList cs)
  := by
  rw [readString, SerdeJson.string_eq_some_iff.mpr rfl, Option.map_some]

theorem readBinary_encode (bytes : Binary) :
  readBinary (.str (Utf16.encode (Base64.encode bytes))) = some bytes
  := by
  rw [readBinary, readString_encode, Option.bind_some, String.toList_ofList, Base64.decode_encode]

/-- The document of a height, as the contract that sends it writes it. -/
def heightDoc (height : Height) : Json.Doc :=
  .obj [(Json.str "revision_height", .num (SerdeJson.Number.posInt height.revisionHeight).literal),
    (Json.str "revision_number", .num (SerdeJson.Number.posInt height.revisionNumber).literal)]

/-- A field is read from the member of its name. -/
theorem field_of_mem {α : Type} {name : String} {d : Json.Doc} (read : Json.Doc → Option α)
    {members : List (Json.Str × Json.Doc)} (hnodup : (members.map Prod.fst).Nodup)
    (h : (Json.str name, d) ∈ members) :
  field name read members = read d
  := by
  rw [field, Json.member_of_mem hnodup h, Option.bind_some]

theorem readHeight_heightDoc {height : Height} (hnumber : height.revisionNumber < 2 ^ 64)
    (hheight : height.revisionHeight < 2 ^ 64) :
  readHeight (heightDoc height) = some height
  := by
  simp only [readHeight, heightDoc, fields, List.map_cons, List.map_nil]
  rw [if_pos (by decide)]
  simp only [Option.bind_eq_bind, Option.bind_some]
  rw [field_of_mem _ (by simp only [List.map_cons, List.map_nil]; decide)
      (List.mem_cons_of_mem _ List.mem_cons_self), readU64_literal hnumber, Option.bind_some,
    field_of_mem _ (by simp only [List.map_cons, List.map_nil]; decide) List.mem_cons_self,
    readU64_literal hheight, Option.bind_some]

end ProofCallback
