import InterchainEvents.Async.Tasks
import InterchainEvents.Rust.JsonText
import InterchainEvents.Watcher.Coverage
import InterchainEvents.Watcher.Submit

/-!
# The functions of the watcher as tasks

Polls and submissions asked for by hand run in one event loop and share the state of the watcher.
Here are these functions with their waits: what they ask of the chains and of the host
(`Request`), what they do to the shared state (`Command`), and how they go on when a request fails.

A request and the reading of its answer are one request, since nothing happens in between. The
body of a submission by hand may be any JSON value, and so may the number and the key in it.
-/

namespace Watcher.Tasks

open Shared Async

/-! ### Values -/

/-- A natural number as a JSON value. -/
def number (n : ℕ) : Json.Doc := .num (SerdeJson.Number.posInt n).literal

/-- Whether a value counts as true. -/
def truthy : Json.Doc → Bool
  | .null => false
  | .bool b => b
  | .num l => !(Js.literal l).same (.finite false 0)
  | .str s => s ≠ []
  | _ => true

/-- `id === value`, for a number `id`. -/
def identical (id : ℕ) : Json.Doc → Bool
  | .num l => (Js.literal (SerdeJson.Number.posInt id).literal).same (Js.literal l)
  | _ => false

/-! ### The shared state -/

/-- What an event says, its time apart. -/
structure Note where
  subscriptionId : Json.Doc
  type : EventType
  message : Json.Str
  txHash : Option String

/-- An event. -/
structure WatcherEvent extends Note where
  timestamp : ℕ

/-- A subscription as it is listed: as the watcher uses it, and its status. -/
structure Listed extends WireSubscription where
  status : WireStatus

/-- The state of the watcher that polls and submissions share, and the clock of the host, which is
taken never to go back. -/
structure State where
  subscriptions : List Listed
  events : List WatcherEvent
  lastCheck : Option ℕ
  error : Option Json.Str
  clock : ℕ

/-- The state in the beginning. -/
def State.initial (clock : ℕ) : State := ⟨[], [], none, none, clock⟩

/-- The newest event comes first, and the last 100 events are kept. -/
def addEvent (event : Note) (state : State) : State :=
  let full : WatcherEvent := { event with timestamp := state.clock }
  let events := full :: state.events
  { state with events := if events.length > 100 then events.take 100 else events }

/-- The answer of the endpoint for submissions by hand. -/
inductive HttpAnswer where
  | ok (txHash : String)
  | error (statusCode : ℕ) (message : String)

/-- What the functions do to the state, what the endpoint answers, and that time passes. -/
inductive Command where
  | addEvent (event : Note)
  | setSubscriptions (subscriptions : List Listed)
  | setLastCheck
  | setError (error : Option Json.Str)
  | respond (answer : HttpAnswer)
  | pass (ms : ℕ)

/-- The state after a command. -/
def apply : Command → State → State
  | .addEvent event, state => addEvent event state
  | .setSubscriptions subscriptions, state => { state with subscriptions := subscriptions }
  | .setLastCheck, state => { state with lastCheck := some state.clock }
  | .setError error, state => { state with error := error }
  | .respond _, state => state
  | .pass ms, state => { state with clock := state.clock + ms }

/-! ### Requests -/

/-- An exception. -/
structure Failure where
  name : String
  message : String

/-- `e.message || String(e)` -/
def Failure.text (e : Failure) : Json.Str :=
  Json.str (if e.message = "" then e.name else e.message)

/-- `new Error(message)` -/
def Failure.ofMessage (message : String) : Failure := ⟨"Error", message⟩

/-- What the functions wait for. The data of a query goes into its address as it is. -/
inductive Request where
  | connect
  | listSubscriptions (startAfter : Option ℕ) (limit : ℕ)
  | abciQuery (path data : String)
  | block (height : Option ℤ)
  | sleep (ms : ℕ)
  | fromMnemonic (mnemonic : String)
  | getAccounts
  | connectWithSigner
  | execute (sender : String) (msg : SubmitMsg Json.Doc)

/-- What is answered to a request. -/
@[reducible]
def Response : Request → Type
  | .connect => Unit
  | .listSubscriptions _ _ => Option (List Listed)
  | .abciQuery _ _ => Rpc.QueryResponse
  | .block _ => Option String
  | .sleep _ => Unit
  | .fromMnemonic _ => Unit
  | .getAccounts => List String
  | .connectWithSigner => Unit
  | .execute _ _ => String

/-- A function of the watcher. -/
abbrev Program : Type → Type := Async State Command Failure Response

/-- `await` -/
abbrev await (req : Request) : Program (Response req) := request req

/-- What is observed of a function. -/
abbrev Seen : Type := Observation State Command Failure Response

/-- What differs from one version of the host to the other: the exception of `atob` for a text that
is not base64. -/
class Host where
  invalidCharacter : Failure

/-- The exception for a property of `undefined`. -/
def undefinedProperty (property : String) : Failure :=
  ⟨"TypeError", "Cannot read properties of undefined (reading '" ++ property ++ "')"⟩

/-- The exception for a property of `null`. -/
def nullProperty (property : String) : Failure :=
  ⟨"TypeError", "Cannot read properties of null (reading '" ++ property ++ "')"⟩

/-- The exception for a value that has no text. -/
def noPrimitive : Failure := ⟨"TypeError", "Cannot convert object to primitive value"⟩

/-! ### Texts -/

/-- A height in a text. -/
def heightText : Option ℤ → String
  | some height => toString height
  | none => "NaN"

/-- A condition as a JSON value, its members in the order in which the contract writes them. -/
def conditionValue : WireCondition → SerdeJson.Value
  | .exists => .string "exists".toList
  | .equals expected =>
      .object [("equals".toList, .object [("expected".toList, .string expected.toList)])]
  | .greaterThan threshold encoding =>
      .object [("greater_than".toList, .object [("threshold".toList, .string threshold.toList),
        ("encoding".toList, .string encoding.toList)])]
  | .lessThan threshold encoding =>
      .object [("less_than".toList, .object [("threshold".toList, .string threshold.toList),
        ("encoding".toList, .string encoding.toList)])]
  | .jsonPathEquals path expected =>
      .object [("json_path_equals".toList, .object [("path".toList, .string path.toList),
        ("expected".toList, .string expected.toList)])]

/-- `JSON.stringify(condition)` -/
def stringify (condition : WireCondition) : String :=
  String.ofList (conditionValue condition).render

/-- A result, or an exception. -/
def orThrow {α : Type} (e : Failure) : Option α → Except Failure α
  | some a => .ok a
  | none => .error e

/-- The text of a value in a template. -/
def template (d : Json.Doc) : Except Failure Json.Str :=
  orThrow noPrimitive (Js.docText d)

section

variable [host : Host]

/-! ### Fetching -/

/-- The proof in an answer, or nothing where it has no value. -/
def readAnswer (result : Rpc.QueryResponse) : Except Failure (Option StateProof) :=
  match result.value with
  | none => .ok none
  | some value =>
      if value = "" then .ok none
      else do
        let key ← orThrow host.invalidCharacter (fromBase64 result.key)
        let value ← orThrow host.invalidCharacter (fromBase64 value)
        let ops ← orThrow (nullProperty "ops") result.proofOps
        let proofOps ← orThrow host.invalidCharacter (ops.mapM fun op =>
          (fromBase64 op.data).map fun data => (⟨op.type, data⟩ : Rpc.ProofOp))
        .ok (some ⟨key, value, heightOf result.height, proofOps⟩)

/-- The value under a key with a proof, or nothing where the answer has no value. -/
def fetchStateWithProof (iavlKeyHex : String) : Program (Option StateProof) := do
  let result ← await (.abciQuery "store/wasm/key" ("0x" ++ iavlKeyHex))
  fromExcept (readAnswer result)

/-- The hash in the header of the block after a height, if it is there at one of so many
attempts. -/
def attemptAppHash (height : Option ℤ) : (attempts : ℕ) → Program Binary
  | 0 => .fail (.ofMessage
      ("Failed to fetch app_hash for block " ++ heightText (height.map (· + 1))))
  | attempts + 1 => do
      let appHashHex ← await (.block (height.map (· + 1)))
      match appHashHex.filter (· ≠ "") with
      | some appHashHex => pure (hexToBytes appHashHex.toList)
      | none =>
          let _ ← await (.sleep 2000)
          attemptAppHash height attempts

/-- The hash of the application after a height. -/
def fetchAppHash (height : Option ℤ) : Program Binary :=
  attemptAppHash height 10

/-- The active subscriptions among the first 100. -/
def fetchActiveSubscriptions : Program (List Listed) := do
  let _ ← await .connect
  let subscriptions ← await (.listSubscriptions none 100)
  pure ((subscriptions.getD []).filter fun s => s.status = .word "active")

/-! ### Submitting -/

/-- The message with a proof. -/
def submitMsg (subscriptionId : Json.Doc) (proof : StateProof) (appHash : Binary) :
    SubmitMsg Json.Doc where
  subscriptionId := subscriptionId
  revisionNumber := neutronRevisionNumber
  revisionHeight := proof.height
  appHash := toBase64 appHash
  proof := toBase64 (buildMerkleProof proof.proofOps)
  key := toBase64 proof.key
  value := toBase64 proof.value

/-- The hash of the application is fetched, and the proof signed and submitted. -/
def signAndSubmit (mnemonic : String) (subscriptionId : Json.Doc) (proof : StateProof) :
    Program String := do
  let appHash ← fetchAppHash proof.height
  let _ ← await (.fromMnemonic mnemonic)
  let accounts ← await .getAccounts
  let _ ← await .connectWithSigner
  let address ← fromExcept (orThrow (undefinedProperty "address") accounts.head?)
  let transactionHash ← await (.execute address (submitMsg subscriptionId proof appHash))
  perform (.addEvent ⟨subscriptionId, .proofSubmitted,
    Json.str ("Proof submitted! TX: " ++ transactionHash), some transactionHash⟩)
  pure transactionHash

/-- The part of `processSubscription` whose exceptions are caught. -/
def checkAndSubmit (sub : WireSubscription) (mnemonic watchKeyHex : String) : Program Unit := do
  let proof ← fetchStateWithProof watchKeyHex
  match proof with
  | none =>
      perform (.addEvent ⟨number sub.id, .check, Json.str "Key not found on remote chain", none⟩)
  | some proof =>
      if checkCondition sub.condition proof.value = false then
        perform (.addEvent ⟨number sub.id, .check, Json.str "Condition not met (value: "
          ++ (Utf16.encode (Js.textDecode proof.value)).take 80 ++ Json.str "...)", none⟩)
      else
        perform (.addEvent ⟨number sub.id, .conditionMet, Json.str ("Condition met at height "
          ++ heightText proof.height ++ "! Submitting proof..."), none⟩)
        let _ ← signAndSubmit mnemonic (number sub.id) proof
        pure ()

/-- What a poll does with a subscription. -/
def processSubscription (sub : WireSubscription) (mnemonic : String) : Program Unit :=
  if sub.watchKey = "" then
    perform (.addEvent ⟨number sub.id, .check, Json.str ("Subscription " ++ toString sub.id
      ++ ": no watch_key, skipping"), none⟩)
  else do
    let watchKeyBytes ← fromExcept (orThrow host.invalidCharacter (fromBase64 sub.watchKey))
    let watchKeyHex := String.ofList (bytesToHex watchKeyBytes)
    perform (.addEvent ⟨number sub.id, .check, Json.str ("Checking subscription " ++ toString sub.id
      ++ " (condition: " ++ stringify sub.condition ++ ")"), none⟩)
    (checkAndSubmit sub mnemonic watchKeyHex).handle fun e =>
      perform (.addEvent ⟨number sub.id, .error, Json.str "Error: " ++ e.text, none⟩)

/-- `process.env.WATCHER_MNEMONIC`, if there is one. -/
def truthyMnemonic (mnemonic : Option String) : Option String :=
  mnemonic.filter (· ≠ "")

/-- What a poll does with the list. -/
def pollListed (mnemonic : Option String) (subscriptions : List Listed) : Program Unit := do
  perform (.setSubscriptions subscriptions)
  perform .setLastCheck
  perform (.setError none)
  let state ← shared
  if state.subscriptions.length = 0 then pure ()
  else
    match truthyMnemonic mnemonic with
    | none =>
        perform (.setError (some
          (Json.str "WATCHER_MNEMONIC not set — watching in read-only mode")))
    | some mnemonic => do
        let state ← shared
        forEach state.subscriptions fun sub => processSubscription sub.toWireSubscription mnemonic

/-- The part of `pollOnce` whose exceptions are caught. -/
def pollSubscriptions (mnemonic : Option String) : Program Unit := do
  let subscriptions ← fetchActiveSubscriptions
  pollListed mnemonic subscriptions

/-- A poll. -/
def pollOnce (mnemonic : Option String) : Program Unit :=
  (pollSubscriptions mnemonic).handle fun e => do
    perform (.setError (some e.text))
    let state ← shared
    perform (.addEvent ⟨number 0, .error,
      Json.str "Poll error: " ++ state.error.getD (Json.str "null"), none⟩)

/-! ### Submissions by hand -/

/-- A proof is fetched and submitted for a subscription. The condition is checked if the
subscription was listed in the last poll, under the same number: no text is the same as a number. -/
def submitProofForSubscription (mnemonic : Option String) (subscriptionId iavlKeyHex : Json.Doc) :
    Program String :=
  match truthyMnemonic mnemonic with
  | none => .fail (.ofMessage "WATCHER_MNEMONIC not set")
  | some mnemonic => do
      let idText ← fromExcept (template subscriptionId)
      perform (.addEvent ⟨subscriptionId, .check, Json.str "Fetching proof for subscription "
        ++ idText ++ Json.str "...", none⟩)
      let keyText ← fromExcept (template iavlKeyHex)
      let proof ← fetchStateWithProof (String.ofList (Utf16.text keyText))
      match proof with
      | none => .fail (.ofMessage "State not found at this key")
      | some proof =>
          let state ← shared
          let sub := state.subscriptions.find? fun s => identical s.id subscriptionId
          if (sub.any fun sub => !checkCondition sub.condition proof.value) then
            perform (.addEvent ⟨subscriptionId, .check,
              Json.str "Condition not met for subscription " ++ idText, none⟩)
            .fail (.ofMessage "Condition not met")
          else
            perform (.addEvent ⟨subscriptionId, .conditionMet,
              Json.str ("Condition met! Submitting proof at height " ++ heightText proof.height
                ++ "..."), none⟩)
            signAndSubmit mnemonic subscriptionId proof

/-- The two members of a body, if both count as true. -/
def requested (body : Json.Doc) : Option (Json.Doc × Json.Doc) := do
  let subscriptionId ← (body.get? (Json.str "subscription_id")).filter truthy
  let iavlKeyHex ← (body.get? (Json.str "iavl_key_hex")).filter truthy
  some (subscriptionId, iavlKeyHex)

/-- `POST /api/watcher/submit-proof`, given its body, if there is one. An exception that is not
caught here is answered by the server. -/
def submitProofPost (mnemonic : Option String) : (body : Option Json.Doc) → Program HttpAnswer
  | none => .fail (undefinedProperty "subscription_id")
  | some .null => .fail (nullProperty "subscription_id")
  | some body =>
      match requested body with
      | none => pure (.error 400 "subscription_id and iavl_key_hex are required")
      | some (subscriptionId, iavlKeyHex) =>
          (do
            let txHash ← submitProofForSubscription mnemonic subscriptionId iavlKeyHex
            pure (HttpAnswer.ok txHash)).handle fun e =>
              pure (.error 500 (if e.message = "" then "Failed to submit proof" else e.message))

/-! ### Tasks -/

/-- What runs in the event loop: a poll, the endpoint, or the passing of time. -/
inductive Task where
  | poll (mnemonic : Option String)
  | post (mnemonic : Option String) (body : Option Json.Doc)
  | clock (ms : ℕ)

/-- The program of a task. -/
def Task.program : Task → Program Unit
  | .poll mnemonic => pollOnce mnemonic
  | .post mnemonic body => do
      let answer ← submitProofPost mnemonic body
      perform (.respond answer)
  | .clock ms => perform (.pass ms)

/-- What can happen in the event loop. -/
abbrev Happening : Type := Async.Action State Command Failure Response

/-- The event loop. -/
abbrev Loop : Type := System State Command Failure Response

/-- A run of the event loop in which these tasks begin, in this order. -/
structure Runs (clock : ℕ) (tasks : List Task) (h : List (Loop × Happening)) (s : Loop) :
    Prop where
  run : Machine.Run (step apply) (.initial (.initial clock)) h s
  programs : programs h = tasks.map Task.program

/-- What happens in a run decides which tasks begin. -/
theorem runs_of_exec {clock : ℕ} {tasks : List Task} {l : List Happening}
    {r : List (Loop × Happening) × Loop}
    (hexec : Machine.exec (step apply) (.initial (.initial clock)) l = some r)
    (hspawned : l.filterMap Action.spawned = tasks.map Task.program) :
  Runs clock tasks r.1 r.2
  := by
  refine ⟨Machine.run_of_exec hexec, ?_⟩
  rw [← hspawned, ← Machine.actions_of_exec hexec, List.filterMap_map]
  rfl

end

/-! ### A sample -/

/-- A host. -/
@[reducible]
def sampleHost : Host where
  invalidCharacter :=
    ⟨"InvalidCharacterError", "The string to be decoded is not correctly encoded."⟩

/-- Answers with a subscription that is met. -/
def sampleAnswer : (req : Request) → Except Failure (Response req)
  | .connect => .ok ()
  | .listSubscriptions _ _ => .ok (some [⟨⟨7, ["wasm"], "AQ==", .exists⟩, .word "active"⟩])
  | .abciQuery _ _ => .ok ⟨"AQ==", some "AQ==", "5", some []⟩
  | .block _ => .ok (some "ab")
  | .sleep _ => .ok ()
  | .fromMnemonic _ => .ok ()
  | .getAccounts => .ok ["cosmos1"]
  | .connectWithSigner => .ok ()
  | .execute _ _ => .ok "01"

/-- A run of one task, with these answers, up to its end. -/
def sampleRun (task : Task) (resumptions : ℕ) : Option (List (Loop × Happening) × Loop) :=
  Machine.exec (step apply) (.initial (.initial 0))
    (.spawn (@Task.program sampleHost task) :: List.replicate resumptions (.resume 0 sampleAnswer))

end Watcher.Tasks
