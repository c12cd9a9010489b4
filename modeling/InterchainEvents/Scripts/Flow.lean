import InterchainEvents.Async.Program
import InterchainEvents.ProofCallback.Contract
import InterchainEvents.Registry.Contract
import InterchainEvents.Scripts.IavlKey
import InterchainEvents.Watcher.Tasks

/-!
# The test flow

The script goes through the whole scenario: it writes an attestation on the remote chain, creates a
subscription for it on the hub, fetches a proof, submits it, and shows what the callback contract
has recorded. It can also submit a proof for a subscription that exists, or only query.

Here are its functions with what they ask of the chains and of the host (`Request`) and what they
leave on the console (`Command`). Numbers are below `2 ^ 53`, whatever their sign, so that they are
held exactly.
-/

namespace Scripts.Flow

open Shared Async
open Watcher.Tasks (Failure orThrow undefinedProperty nullProperty)

/-! ### The configuration -/

def neutronRevisionNumber : ℕ := 2

def neutronLightClientId : String := "07-tendermint-1119"

/-- The address of the hub contract. -/
def interchainEventsAddress : String :=
  "cosmos1ul3v2sh4uqgvzr2c00dz2un6373hkunk0e0z9ay9x9td3uj7qdtqqggyqc"

/-- The address of the callback contract. -/
def proofCallbackAddress : String :=
  "cosmos108u0auz26aqgulr5exh4h2gadqar7qedcjj9yx7da5ramn0hlnmqj5plp2"

/-! ### Arguments -/

/-- The value of an argument: a text, or `true` where there is none. -/
inductive Flag where
  | text (s : String)
  | present
  deriving DecidableEq

/-- The value as a text. -/
def Flag.toText : Flag → String
  | .text s => s
  | .present => "true"

/-- The name and the value that an argument gives. -/
def flagOf (arg : String) : Option (String × Flag) :=
  match arg.toList with
  | '-' :: '-' :: rest =>
      match rest.splitOn '=' with
      | [] => none
      | [key] => some (String.ofList key, .present)
      | key :: value :: _ => some (String.ofList key, .text (String.ofList value))
  | _ => none

/-- The arguments by their names. -/
abbrev Flags : Type := List (String × Flag)

/-- The flags among the arguments. -/
def parseArgs (args : List String) : Flags :=
  args.filterMap flagOf

/-- The flag of a name. The last one counts. -/
def Flags.get (flags : Flags) (key : String) : Option Flag :=
  (flags.reverse.find? fun e => e.1 = key).map Prod.snd

/-- `(flags[key] as string) || text` -/
def Flags.getOr (flags : Flags) (key text : String) : Flag :=
  match flags.get key with
  | none => .text text
  | some (.text s) => .text (if s = "" then text else s)
  | some .present => .present

/-- The variables of the environment. -/
structure ProcessEnv where
  mnemonicHub : Option String
  mnemonicNeutron : Option String
  mnemonic : Option String

/-- `a || b`, if that is not empty. -/
def firstTruthy (a b : Option String) : Option String :=
  (a.filter (· ≠ "")).or (b.filter (· ≠ ""))

/-- `parseInt(text, 10)` -/
def integerOf (s : String) : Option ℤ :=
  Js.integer (Js.parseInt s.toList (some 10))

example : integerOf " -12x" = some (-12) := by decide +kernel

/-! ### The console -/

/-- What is shown. -/
inductive Line where
  | attestation (answer : Registry.AttestationResponse)
  | attestationNotFound (id : Flag)
  | subscription (sub : Subscription)
  | subscriptionNotFound (id : Option ℤ)
  | events (events : List ProofCallback.Event)
  | error (text : Json.Str)

/-- The console, and the code with which the process has exited. -/
structure State where
  lines : List Line
  exitCode : Option ℕ

/-- The state in the beginning. -/
def State.initial : State := ⟨[], none⟩

inductive Command where
  | print (line : Line)
  | exit (code : ℕ)

/-- The state after a command. The first exit counts. -/
def apply : Command → State → State
  | .print line, state => { state with lines := state.lines ++ [line] }
  | .exit code, state => { state with exitCode := some (state.exitCode.getD code) }

/-! ### Requests -/

/-- The two chains. -/
inductive Chain where
  | hub
  | neutron
  deriving DecidableEq

/-- The message that subscribes. -/
structure SubscribeMsg where
  clientId : String
  keyPath : List String
  watchKey : String
  condition : WireCondition
  callbackContract : String
  callbackMsg : String
  expiresAfterBlocks : Option ℕ
  deriving DecidableEq

/-- The message that submits a proof. -/
structure SubmitProofMsg where
  subscriptionId : Option ℤ
  revisionNumber : ℕ
  revisionHeight : Option ℤ
  appHash : String
  proof : String
  key : String
  value : String
  deriving DecidableEq, Inhabited

/-- The messages to the hub contract. -/
inductive HubMsg where
  | subscribe (msg : SubscribeMsg)
  | submitProof (msg : SubmitProofMsg)
  deriving DecidableEq

/-- What is known of a transaction. -/
structure ExecuteResult where
  transactionHash : String
  height : ℕ
  attributes : List (String × String)
  deriving DecidableEq, Inhabited

/-- The answer to a query with a proof. -/
structure AbciResponse extends Rpc.QueryResponse where
  code : Option ℕ
  log : Option String

/-- What the functions wait for. -/
inductive Request where
  | fromMnemonic (mnemonic chainName : String)
  | getAccounts
  | connectWithSigner (chain : Chain)
  | connect (chain : Chain)
  | attest (sender : String) (id : Flag) (status : String)
  | execute (sender : String) (msg : HubMsg)
  | getAttestation (id : Flag)
  | getSubscription (id : Option ℤ)
  | getEvents
  | abciQuery (path data : String) (height : Option ℕ)
  | block (height : Option ℤ)
  | sleep (ms : ℕ)

/-- What is answered to a request. -/
@[reducible]
def Response : Request → Type
  | .fromMnemonic _ _ => Unit
  | .getAccounts => List String
  | .connectWithSigner _ => Unit
  | .connect _ => Unit
  | .attest _ _ _ => ExecuteResult
  | .execute _ _ => ExecuteResult
  | .getAttestation _ => Registry.AttestationResponse
  | .getSubscription _ => Subscription
  | .getEvents => List ProofCallback.Event
  | .abciQuery _ _ _ => AbciResponse
  | .block _ => Option String
  | .sleep _ => Unit

/-- A function of the script. -/
abbrev Program : Type → Type := Async State Command Failure Response

/-- `await` -/
abbrev await (req : Request) : Program (Response req) := request req

/-- What is observed of a function. -/
abbrev Seen : Type := Observation State Command Failure Response

/-! ### Signing -/

/-- A client of a chain that signs: its address. -/
def getSigningClient (chain : Chain) (chainName mnemonic : String) : Program String := do
  let _ ← await (.fromMnemonic mnemonic chainName)
  let accounts ← await .getAccounts
  let _ ← await (.connectWithSigner chain)
  fromExcept (orThrow (undefinedProperty "address") accounts.head?)

def getHubSigningClient (mnemonic : String) : Program String :=
  getSigningClient .hub "cosmos" mnemonic

def getNeutronSigningClient (mnemonic : String) : Program String :=
  getSigningClient .neutron "neutron" mnemonic

/-! ### Writing and subscribing -/

/-- An attestation is written, and asked for. -/
def writeAttestation (mnemonic : String) (attestationId : Flag) (status : String) :
    Program ℕ := do
  let address ← getNeutronSigningClient mnemonic
  let result ← await (.attest address attestationId status)
  let queryResult ← await (.getAttestation attestationId)
  perform (.print (.attestation queryResult))
  pure result.height

/-- `JSON.stringify({ on_proof_verified: {} })` -/
def callbackMsg : String :=
  String.ofList (SerdeJson.Value.object [("on_proof_verified".toList, .object [])]).render

/-- The message that subscribes to an attestation. -/
def subscribeMsg (clientId : String) (attestationId : Flag) : SubscribeMsg where
  clientId := clientId
  keyPath := ["wasm"]
  watchKey := toBase64 (buildAttestationIavlKey attestationId.toText.toList)
  condition := .jsonPathEquals "status" "approved"
  callbackContract := proofCallbackAddress
  callbackMsg := toBase64 (utf8 callbackMsg)
  expiresAfterBlocks := none

/-- The number of the subscription that a transaction has created. -/
def subscriptionIdOf (result : ExecuteResult) : Option ℤ :=
  match result.attributes.find? fun a => a.1 = "subscription_id" with
  | some a => integerOf a.2
  | none => some 1

/-- A subscription is created. -/
def createSubscription (mnemonic clientId : String) (attestationId : Flag) :
    Program (Option ℤ) := do
  let address ← getHubSigningClient mnemonic
  let result ← await (.execute address (.subscribe (subscribeMsg clientId attestationId)))
  pure (subscriptionIdOf result)

/-! ### Fetching -/

/-- A value with a proof. -/
structure ProofResult where
  key : Binary
  value : Binary
  height : Option ℤ
  proofOps : List Rpc.ProofOp

/-- A decoder of base64. -/
def sampleBase64 (s : String) : Except Failure Binary :=
  orThrow (.ofMessage "Invalid base64 string format") (ofBase64 s)

section Fetching

variable (fromBase64 : String → Except Failure Binary)

/-- A step of a proof, read. -/
def readProofOp (op : Rpc.RawProofOp) : Except Failure Rpc.ProofOp := do
  let _ ← fromBase64 op.key
  let data ← fromBase64 op.data
  .ok ⟨op.type, data⟩

/-- The proof in an answer. -/
def readAnswer (result : AbciResponse) : Except Failure ProofResult :=
  if result.code ≠ some 0 ∧ result.code ≠ none then
    .error (.ofMessage ("abci_query failed: code=" ++ ((result.code.map toString).getD "undefined")
      ++ " log=" ++ result.log.getD "undefined"))
  else
    match result.value.filter (· ≠ "") with
    | none =>
        .error (.ofMessage
          "abci_query returned no value - the attestation may not exist at this height")
    | some value => do
        let key ← fromBase64 result.key
        let value ← fromBase64 value
        let ops ← orThrow (nullProperty "ops") result.proofOps
        let proofOps ← ops.mapM (readProofOp fromBase64)
        .ok ⟨key, value, integerOf result.height, proofOps⟩

/-- The value under a key with a proof. -/
def fetchStateWithProof (iavlKeyHex : String) (height : Option ℕ) : Program ProofResult := do
  let result ← await (.abciQuery "store/wasm/key" ("0x" ++ iavlKeyHex) (height.filter (· ≠ 0)))
  fromExcept (readAnswer fromBase64 result)

/-- The hash in the header of the block after a height, which is asked for ten times at most. -/
def fetchAppHash (height : Option ℤ) : Program Binary := do
  let targetHeight := height.map (· + 1)
  let appHashHex ← retry (do
      let appHashHex ← await (.block targetHeight)
      pure (appHashHex.filter (· ≠ "")))
    (await (.sleep 2000))
    (.fail (.ofMessage
      ("Failed to fetch app_hash for block " ++ Watcher.Tasks.heightText targetHeight))) 10
  pure (hexToBytes appHashHex.toList)

/-- What is to be submitted of a proof, in base64. -/
structure EncodedProof where
  appHash : String
  proof : String
  key : String
  value : String

/-- The proof wrapped, with the hash of the application. -/
def encodeProofForContract (proof : ProofResult) : Program EncodedProof := do
  let merkleProof := buildMerkleProof proof.proofOps
  let appHash ← fetchAppHash proof.height
  pure ⟨toBase64 appHash, toBase64 merkleProof, toBase64 proof.key, toBase64 proof.value⟩

/-- The message that submits a proof. -/
def submitProofMsg (subscriptionId height : Option ℤ) (encoded : EncodedProof) :
    SubmitProofMsg where
  subscriptionId := subscriptionId
  revisionNumber := neutronRevisionNumber
  revisionHeight := height
  appHash := encoded.appHash
  proof := encoded.proof
  key := encoded.key
  value := encoded.value

/-- A proof is fetched and submitted. -/
def submitProof (mnemonic : String) (subscriptionId : Option ℤ) (attestationId : Flag)
    (proofHeight : Option ℕ) : Program Unit := do
  let iavlKey := buildAttestationIavlKey attestationId.toText.toList
  let proof ← fetchStateWithProof fromBase64 (String.ofList (bytesToHex iavlKey)) proofHeight
  let encoded ← encodeProofForContract proof
  let address ← getHubSigningClient mnemonic
  let _ ← await (.execute address
    (.submitProof (submitProofMsg subscriptionId proof.height encoded)))
  pure ()

end Fetching

/-! ### Queries -/

/-- What the callback contract has recorded. -/
def queryCallbackEvents : Program (List ProofCallback.Event) := do
  let _ ← await (.connect .hub)
  let result ← await .getEvents
  perform (.print (.events result))
  pure result

/-- A subscription. -/
def querySubscription (subscriptionId : Option ℤ) : Program Subscription := do
  let _ ← await (.connect .hub)
  let result ← await (.getSubscription subscriptionId)
  perform (.print (.subscription result))
  pure result

/-- An attestation, if it is found. -/
def queryAttestation (attestationId : Flag) :
    Program (Option Registry.AttestationResponse) := do
  let _ ← await (.connect .neutron)
  (do
    let result ← await (.getAttestation attestationId)
    perform (.print (.attestation result))
    pure (some result)).handle fun _ => do
      perform (.print (.attestationNotFound attestationId))
      pure none

/-! ### The script -/

/-- `console.error(text)` -/
def consoleError (text : String) : Program Unit :=
  perform (.print (.error (Json.str text)))

/-- How the script is used. -/
def usage : List String :=
  ["Usage: MNEMONIC_HUB='...' MNEMONIC_NEUTRON='...' npx tsx test-flow.ts [options]",
    "\nOptions:",
    "  --query-only                  Read-only mode",
    "  --submit-proof                Submit proof for existing subscription",
    "  --subscription-id=N           Subscription ID (default: 1)",
    "  --attestation-id=ID           Attestation ID (default: cosmos1abc)",
    "  --client-id=07-tendermint-N   IBC light client ID"]

/-- `process.exit(1)` after some errors. -/
def exitWith (errors : List String) : Program Unit := do
  forEach errors consoleError
  perform (.exit 1)

/-- Everything is queried, and nothing is written. -/
def queryMode (flags : Flags) (attestationId : Flag) : Program Unit := do
  let _ ← queryAttestation attestationId
  let subId := integerOf (flags.getOr "subscription-id" "1").toText
  (do
    let _ ← querySubscription subId
    pure ()).handle fun _ => perform (.print (.subscriptionNotFound subId))
  let _ ← queryCallbackEvents
  pure ()

section Main

variable (fromBase64 : String → Except Failure Binary)

/-- A proof is submitted for a subscription that exists. -/
def submitMode (mnemonicHub : String) (flags : Flags) (attestationId : Flag) : Program Unit := do
  let subId := integerOf (flags.getOr "subscription-id" "1").toText
  let _ ← queryAttestation attestationId
  submitProof fromBase64 mnemonicHub subId attestationId none
  let _ ← queryCallbackEvents
  pure ()

/-- The full flow, for a client of the right type. -/
def fullFlow (mnemonicHub mnemonicNeutron clientId : String) (attestationId : Flag) :
    Program Unit := do
  let _ ← writeAttestation mnemonicNeutron attestationId "approved"
  let subscriptionId ← createSubscription mnemonicHub clientId attestationId
  let _ ← await (.sleep 10000)
  submitProof fromBase64 mnemonicHub subscriptionId attestationId none
  let _ ← queryCallbackEvents
  pure ()

/-- The full flow, if the client is of the right type. -/
def checkedFlow (mnemonicHub mnemonicNeutron : String) (clientId attestationId : Flag) :
    Program Unit :=
  match clientId with
  | .present => .fail ⟨"TypeError", "clientId.startsWith is not a function"⟩
  | .text clientId =>
      if "07-tendermint-".toList.isPrefixOf clientId.toList = false then
        exitWith ["\nError: Invalid IBC light client ID: " ++ clientId]
      else fullFlow fromBase64 mnemonicHub mnemonicNeutron clientId attestationId

/-- The script, up to its exceptions. -/
def run (flags : Flags) (env : ProcessEnv) : Program Unit :=
  let mnemonicHub := firstTruthy env.mnemonicHub env.mnemonic
  let mnemonicNeutron := firstTruthy env.mnemonicNeutron env.mnemonic
  let attestationId := flags.getOr "attestation-id" "cosmos1abc"
  let clientId := flags.getOr "client-id" neutronLightClientId
  if flags.get "query-only" = some .present then queryMode flags attestationId
  else
    match mnemonicHub with
    | none =>
        exitWith (("\nError: MNEMONIC_HUB (or MNEMONIC) environment variable required for "
          ++ "signing transactions.") :: usage)
    | some mnemonicHub =>
        if flags.get "submit-proof" = some .present then
          submitMode fromBase64 mnemonicHub flags attestationId
        else
          match mnemonicNeutron with
          | none =>
              exitWith ["\nError: MNEMONIC_NEUTRON required for writing attestations on Neutron."]
          | some mnemonicNeutron =>
              checkedFlow fromBase64 mnemonicHub mnemonicNeutron clientId attestationId

/-- `main().catch(…)` -/
def main (args : List String) (env : ProcessEnv) : Program Unit :=
  (run fromBase64 (parseArgs args) env).handle fun e => do
    perform (.print (.error (Json.str "\nFatal error: " ++ e.text)))
    perform (.exit 1)

end Main

end Scripts.Flow
