import InterchainEvents.Hub.Contract
import InterchainEvents.Watcher.Condition

/-!
# The subscribe form

The modal of the explorer in which a subscription is filled in: what it previews, the message it
makes of what was typed, and what the contract makes of that message.
-/

namespace Explorer

open Shared

/-- The buttons for the conditions. -/
inductive Condition where
  | exists
  | equals
  | jsonPathEquals
  | greaterThan
  | lessThan
  deriving DecidableEq

/-- The options for the encoding of a threshold. -/
def encodingOption : ValueEncoding → String
  | .numeric => "Numeric"
  | .string => "String"
  | .bytes => "Bytes"

/-- What is filled in, and the state entry the modal was opened on. -/
structure Form where
  storeName : String
  storeKey : Option String
  condition : Condition
  threshold : String
  encoding : ValueEncoding
  expectedValue : String
  jsonPath : String
  jsonExpected : String
  callbackContract : String
  callbackMsg : String
  clientId : String
  /-- A number, unless the field is empty. -/
  expiresAfter : Option { x : Binary64 // x.Exact }

/-! ### Preview -/

/-- The text of a value that came in base64, or what came if it is not base64. -/
def decodedValue (value : String) : List Char :=
  (Js.atob value.toList).getD value.toList

/-- The text of what the current value has at the end of the path, walked as in the watcher's
check. -/
def jsonPathPreview (jsonPath : String) (currentValue : List Char) : Option Json.Str :=
  if jsonPath = "" ∨ currentValue = [] then none
  else Watcher.textAt jsonPath currentValue

/-! ### The message -/

/-- The condition in the message. -/
def buildCondition (form : Form) : WireCondition :=
  match form.condition with
  | .exists => .exists
  | .equals => .equals form.expectedValue
  | .jsonPathEquals => .jsonPathEquals form.jsonPath form.jsonExpected
  | .greaterThan => .greaterThan form.threshold (Js.toLowerCase (encodingOption form.encoding))
  | .lessThan => .lessThan form.threshold (Js.toLowerCase (encodingOption form.encoding))

/-- A message `subscribe` as it travels. -/
structure SubscribeMsg where
  clientId : String
  keyPath : List String
  watchKey : String
  condition : WireCondition
  callbackContract : String
  callbackMsg : String
  expiresAfterBlocks : Option Binary64

/-- The matches of `/.{2}/g`: pairs of characters on one line. -/
def pairs : List Char → List (List Char)
  | c :: d :: cs =>
      let breaks (c : Char) : Bool :=
        c = '\n' || c = '\r' || c.toNat = 0x2028 || c.toNat = 0x2029
      if breaks c || breaks d then pairs (d :: cs) else [c, d] :: pairs cs
  | _ => []

/-- The bytes of the store key. -/
def watchKeyBytes (storeKey : String) : Binary :=
  (pairs storeKey.toList).map fun b => Js.toUint8 (Js.parseInt b (some 16))

/-- Whether a number is one of those that count as true. -/
def truthy : Binary64 → Bool
  | .nan => false
  | .finite _ 0 => false
  | _ => true

/-- The number of blocks in the message, if there is one. -/
def expiresAfterBlocks (form : Form) : Option Binary64 :=
  match form.expiresAfter with
  | none => none
  | some x => if truthy x then some (Js.parseInt (Js.numberText x) none) else none

/-- `text || other` -/
def orElse (s other : String) : String :=
  if s = "" then other else s

/-- The message of the form, its callback message being encoded already. -/
def subscribeMsg (form : Form) (storeKey callbackMsg : String) : SubscribeMsg where
  clientId := form.clientId
  keyPath := [form.storeName]
  watchKey := toBase64 (watchKeyBytes storeKey)
  condition := buildCondition form
  callbackContract := form.callbackContract
  callbackMsg := callbackMsg
  expiresAfterBlocks := expiresAfterBlocks form

/-- The message that is sent, or the error that is shown, if there is one. -/
def handleSubmit (connected : Bool) (form : Form) : Except (Option String) SubscribeMsg :=
  let storeKey := form.storeKey.getD ""
  if !connected then .error none
  else if form.clientId = "" then .error (some "IBC Client ID is required")
  else if storeKey = "" then
    .error (some "Watch key not available — select a specific state entry")
  else if form.callbackContract = "" then .error (some "Callback contract is required")
  else
    match Js.btoa (orElse form.callbackMsg "{}").toList with
    | none => .error (some
        "The string to be encoded contains characters outside of the Latin1 range.")
    | some callbackMsg => .ok (subscribeMsg form storeKey (String.ofList callbackMsg))

/-! ### The contract's reading -/

/-- The number of blocks in a message: an integer of 64 bits, if it is not `null`. What is not a
number travels as `null`. -/
def readBlocks : Option Binary64 → Option (Option ℕ)
  | some (.finite neg m) =>
      match Json.parse (Js.numberText (.finite neg m)) with
      | some (.num l) =>
          match SerdeJson.number (fun _ => none) l with
          | some (.posInt n) => some (some n)
          | _ => none
      | _ => none
  | _ => some none

/-- The message that the contract reads. -/
def readSubscribe (msg : SubscribeMsg) : Option Hub.ExecuteMsg := do
  some (.subscribe msg.clientId msg.keyPath (← ofBase64 msg.watchKey)
    (← SubscriptionCondition.ofWire msg.condition) msg.callbackContract
    (← ofBase64 msg.callbackMsg) (← readBlocks msg.expiresAfterBlocks))

end Explorer
