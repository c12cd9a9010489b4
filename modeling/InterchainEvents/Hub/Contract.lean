import InterchainEvents.Platform.Transaction
import InterchainEvents.Rust.Str
import InterchainEvents.Text.Base64
import InterchainEvents.Hub.Verification

/-!
# The hub contract

Subscriptions are stored under the numbers 1, 2, …; a proof submitted for one that is active
and whose condition holds of the proven value triggers it, and the subscriber's callback is
called. When the callback fails, `reply` marks the subscription as failed.

The entry points run on the storage and leave one also when they fail; whether that one is
committed is the platform's concern. `contract` is what the platform sees of them.
-/

namespace Hub

open Shared

/-! ### Messages and storage -/

/-- The block an entry point runs in. -/
structure Env where
  height : ℕ

/-- Who sends a message. -/
structure MessageInfo where
  sender : String

/-- The messages of the contract. -/
inductive ExecuteMsg where
  | subscribe (clientId : String) (keyPath : List String) (watchKey : Binary)
      (condition : SubscriptionCondition) (callbackContract : String) (callbackMsg : Binary)
      (expiresAfterBlocks : Option ℕ)
  | submitProof (subscriptionId : ℕ) (height : Height) (appHash proof key value : Binary)

/-- A call: a message and who sends it. -/
structure Call where
  info : MessageInfo
  msg : ExecuteMsg

/-- The message to a callback contract. -/
structure Callback where
  contractAddr : String
  msg : Binary

/-- What an entry point answers: a message to send, and attributes. -/
structure Response where
  subMsg : Option (Platform.SubMsg Callback)
  attributes : List (String × String)

/-- Why an entry point fails: with an error, or in an arithmetic overflow. -/
inductive Abort where
  | error (e : ContractError)
  | trap
  deriving DecidableEq

/-- The storage: the next free number, and the subscriptions. -/
structure Storage where
  nextId : ℕ
  subscriptions : Std.ExtTreeMap ℕ Subscription

/-- The storage after `instantiate`. -/
def Storage.initial : Storage := ⟨1, ∅⟩

/-- The storage with a subscription saved under a number. -/
def Storage.save (s : Storage) (id : ℕ) (sub : Subscription) : Storage :=
  { s with subscriptions := s.subscriptions.insert id sub }

/-- The subscription stored under a number. -/
def Storage.load (s : Storage) (id : ℕ) : Option Subscription :=
  s.subscriptions[id]?

/-- The sum of two integers of 64 bits, if it is one. -/
def checkedAdd (m n : ℕ) : Option ℕ :=
  if m + n < 2 ^ 64 then some (m + n) else none

/-! ### Comparing values -/

/-- The number that bytes denote, as a decimal in UTF-8, white space and quotes around it
not counting. -/
def parseU128 (bytes : Binary) : Except ContractError ℕ :=
  match Utf8.decode? bytes with
  | none => .error (.valueDecodeError "not valid UTF-8")
  | some s =>
      let trimmed := Rust.trimMatches (· = '"') (Rust.trim s)
      match Rust.parseUInt 128 trimmed with
      | some n => .ok n
      | none =>
          .error (.valueDecodeError ("cannot parse '" ++ String.ofList trimmed ++ "' as u128"))

/-- The order of two values in an encoding. -/
def compareValues (actual threshold : Binary) (encoding : ValueEncoding) :
    Except ContractError Ordering :=
  match encoding with
  | .bytes => .ok (compare actual threshold)
  | .string =>
      match Utf8.decode? actual, Utf8.decode? threshold with
      | none, _ => .error (.valueDecodeError "actual value is not valid UTF-8")
      | _, none => .error (.valueDecodeError "threshold is not valid UTF-8")
      | some a, some b => .ok (compare (Utf8.encode a) (Utf8.encode b))
  | .numeric => do
      let a ← parseU128 actual
      let b ← parseU128 threshold
      .ok (compare a b)

/-! ### Conditions -/

/-- The value at the end of a path in a JSON value. -/
def walk (path : String) : List (List Char) → SerdeJson.Value →
    Except ContractError SerdeJson.Value
  | [], current => .ok current
  | segment :: segments, current =>
      match current.get segment with
      | some next => walk path segments next
      | none =>
          .error (.valueDecodeError ("path '" ++ path ++ "' not found (missing '"
            ++ String.ofList segment ++ "')"))

/-- A JSON value as a text to compare with. -/
def plainText : SerdeJson.Value → List Char
  | .string s => s
  | .number n => n.text
  | .bool b => (toString b).toList
  | .null => "null".toList
  | other => other.render

variable (lib : Libraries)

/-- The check of a subscription's condition on the proven value. -/
def checkValue (condition : SubscriptionCondition) (value : Binary) :
    Except ContractError Unit :=
  match condition with
  | .exists => .ok ()
  | .equals expected => if value ≠ expected then .error .valueMismatch else .ok ()
  | .greaterThan threshold encoding => do
      if (← compareValues value threshold encoding) ≠ .gt then .error .thresholdNotMet else .ok ()
  | .lessThan threshold encoding => do
      if (← compareValues value threshold encoding) ≠ .lt then .error .thresholdNotMet else .ok ()
  | .jsonPathEquals path expected => do
      let jsonVal ← match SerdeJson.fromSlice lib.float value with
        | some v => .ok v
        | none => .error (.valueDecodeError ("invalid JSON: " ++ lib.jsonError value))
      let current ← walk path (path.toList.splitOn '.') jsonVal
      if plainText current ≠ expected.toList then .error .valueMismatch else .ok ()

/-! ### Entry points -/

/-- A computation on the storage that may fail. -/
abbrev M : Type → Type := ExceptT Abort (StateM Storage)

/-- The answer of a computation begun on a storage, and the storage it leaves. -/
def M.runFrom {α : Type} (x : M α) (s : Storage) : Except Abort α × Storage :=
  (ExceptT.run x).run s

/-- An error of the contract. -/
def fail {α : Type} (e : ContractError) : M α := throw (.error e)

/-- A result that a check may refuse. -/
def check {α : Type} (r : Except ContractError α) : M α :=
  match r with
  | .ok a => pure a
  | .error e => fail e

/-- An arithmetic result, or a trap. -/
def noOverflow (r : Option ℕ) : M ℕ :=
  match r with
  | some n => pure n
  | none => throw .trap

/-- Save a subscription. -/
def save (id : ℕ) (sub : Subscription) : M Unit :=
  modify (·.save id sub)

/-- A new subscription, under the next free number. -/
def executeSubscribe (env : Env) (info : MessageInfo) (clientId : String) (keyPath : List String)
    (watchKey : Binary) (condition : SubscriptionCondition) (callbackContract : String)
    (callbackMsg : Binary) (expiresAfterBlocks : Option ℕ) : M Response := do
  if keyPath = [] then fail .emptyKeyPath
  if watchKey = [] then fail .emptyWatchKey
  if callbackContract = "" then fail .emptyCallbackContract
  let id := (← get).nextId
  let next ← noOverflow (checkedAdd id 1)
  modify fun s => { s with nextId := next }
  let expiresAt ← match expiresAfterBlocks with
    | none => pure none
    | some blocks => some <$> noOverflow (checkedAdd env.height blocks)
  save id {
    id, creator := info.sender, clientId, keyPath, watchKey, condition, callbackContract,
    callbackMsg, status := .active, createdAt := env.height, expiresAt }
  pure ⟨none, [("action", "subscribe"), ("subscription_id", toString id)]⟩

/-- Whether a subscription has expired at a block height. -/
def hasExpired (sub : Subscription) (height : ℕ) : Bool :=
  match sub.expiresAt with
  | some expiresAt => decide (expiresAt < height)
  | none => false

/-- The JSON value sent to the callback contract. -/
def callbackPayload (subscriptionId : ℕ) (value : Binary) (height : Height)
    (callbackMsg : Binary) : SerdeJson.Value :=
  .object [("interchain_event".toList, .object [
    ("callback_msg".toList, .string (Base64.encode callbackMsg)),
    ("height".toList, .object [
      ("revision_height".toList, .number (.posInt height.revisionHeight)),
      ("revision_number".toList, .number (.posInt height.revisionNumber))]),
    ("proven_value".toList, .string (Utf8.decodeLossy value)),
    ("subscription_id".toList, .number (.posInt subscriptionId))])]

/-- A proof submitted for a subscription. -/
def executeSubmitProof (env : Env) (subscriptionId : ℕ) (height : Height)
    (appHash proof key value : Binary) : M Response := do
  let some sub := (← get).load subscriptionId | fail (.subscriptionNotFound subscriptionId)
  if sub.status ≠ .active then fail (.subscriptionNotActive subscriptionId)
  if hasExpired sub env.height then
    save subscriptionId { sub with status := .expired }
    fail (.subscriptionExpired subscriptionId)
  if key ≠ sub.watchKey then fail .keyMismatch
  check (verifyChainedMembership lib appHash proof sub.keyPath key value)
  check (checkValue lib sub.condition value)
  save subscriptionId { sub with status := .triggered }
  let payload := callbackPayload subscriptionId value height sub.callbackMsg
  pure ⟨some ⟨subscriptionId, ⟨sub.callbackContract, Utf8.encode payload.render⟩⟩,
    [("action", "submit_proof"), ("subscription_id", toString subscriptionId),
      ("callback_contract", sub.callbackContract), ("status", "triggered")]⟩

/-- The messages of the contract. -/
def execute (env : Env) (info : MessageInfo) (msg : ExecuteMsg) : M Response :=
  match msg with
  | .subscribe clientId keyPath watchKey condition callbackContract callbackMsg
      expiresAfterBlocks =>
      executeSubscribe env info clientId keyPath watchKey condition callbackContract callbackMsg
        expiresAfterBlocks
  | .submitProof subscriptionId height appHash proof key value =>
      executeSubmitProof lib env subscriptionId height appHash proof key value

/-- The answer to the message of a callback, the identifier being that of the subscription. -/
def reply (id : ℕ) (result : Except String Unit) : M Response :=
  match result with
  | .ok () => pure ⟨none, []⟩
  | .error error => do
      let some sub := (← get).load id | fail (.std (lib.kind id))
      save id { sub with status := .failed error }
      pure ⟨none,
        [("action", "callback_failed"), ("subscription_id", toString id), ("error", error)]⟩

/-- The contract as the platform sees it. The reply is asked for on errors only. -/
def contract : Platform.Contract Storage Env Call Callback Abort where
  execute env call s :=
    let (r, s') := (execute lib env call.info call.msg).runFrom s
    (r.map Response.subMsg, s')
  reply _ id error s :=
    let (r, s') := (reply lib id (.error error)).runFrom s
    (r.map fun _ => (), s')

/-! ### Queries -/

/-- The subscriptions in the order of their numbers, with these. -/
def Storage.range (s : Storage) (startAfter : Option ℕ) : List (ℕ × Subscription) :=
  s.subscriptions.toList.filter fun e =>
    match startAfter with
    | none => true
    | some id => decide (id < e.1)

/-- A page of the subscriptions. -/
def queryListSubscriptions (s : Storage) (startAfter limit : Option ℕ) : List Subscription :=
  ((s.range startAfter).take (min (limit.getD 30) 100)).map Prod.snd

/-- What a watcher of a remote chain has to watch. -/
def queryActiveWatchesByClient (s : Storage) (clientId : String) : List WatchInfo :=
  (s.range none).filterMap fun (_, sub) =>
    if sub.status = .active ∧ sub.clientId = clientId then
      some ⟨sub.id, sub.clientId, sub.keyPath, sub.watchKey, sub.condition⟩
    else none

end Hub
