import InterchainEvents.Async.Program
import InterchainEvents.Explorer.TreeNode
import InterchainEvents.Js.Stringify

/-!
# What the explorer fetches

The nodes below a folder of the explorer are made of what REST endpoints answer: each module has a
function that fetches them, page by page if there are many, and some can be searched for a key. An
answer holds the members that the explorer reads of it, as the endpoint documents them; an absent
member is `none`.

The error with which a request or a function fails is its message.
-/

namespace Explorer

open Async

/-! ### Endpoints -/

/-- A page of a listing, and the key of the next one. -/
structure Listing (α : Type) where
  items : Option (List α)
  nextKey : Option (List Char)

/-- An amount of a token. -/
structure Coin where
  denom : List Char
  amount : List Char

/-- A validator, with its moniker and the rate of its commission. -/
structure Validator where
  moniker : Option (List Char)
  operatorAddress : List Char
  tokens : Option Json.Doc
  status : Option Json.Doc
  rate : Option Json.Doc

/-- A proposal, whose title is its own or that of its content. -/
structure Proposal where
  proposalId : Option (List Char)
  id : Option (List Char)
  contentTitle : Option (List Char)
  title : Option (List Char)
  status : List Char

/-- A client of another chain. -/
structure ClientState where
  clientId : List Char
  chainId : Option (List Char)

/-- A connection to another chain. -/
structure Connection where
  id : List Char
  clientId : List Char
  state : List Char

/-- A channel of a connection, and its other end. -/
structure Channel where
  portId : List Char
  channelId : List Char
  state : List Char
  counterparty : Option (List Char)

/-- A code that contracts are made of. -/
structure CodeInfo where
  codeId : List Char
  creator : List Char

/-- A query of another chain that a contract has registered. -/
structure RegisteredQuery where
  id : List Char
  queryType : List Char
  owner : Option Json.Doc
  keys : Option Json.Doc

/-- The endpoints by what they answer. -/
inductive Kind where
  | supply
  | balances
  | validators
  | proposals
  | clientStates
  | connections
  | channels
  | codeInfos
  | contract
  | models
  | pool
  | inflation
  | registeredQueries
  | denoms
  | params
  deriving DecidableEq

/-- What an endpoint answers. -/
abbrev Kind.Answer : Kind → Type
  | .supply => Listing Coin
  | .balances => Option (List Coin)
  | .validators => Listing Validator
  | .proposals => Listing Proposal
  | .clientStates => Listing ClientState
  | .connections => Listing Connection
  | .channels => Listing Channel
  | .codeInfos => Listing CodeInfo
  | .contract => ContractInfo
  | .models => List Model
  | .pool => Option (List Coin)
  | .inflation => Option (List Char)
  | .registeredQueries => Listing RegisteredQuery
  | .denoms => Option (List (List Char))
  | .params => Option (List (Json.Str × Json.Doc))

/-- A request to an endpoint: its address, and what is asked. -/
structure Request where
  kind : Kind
  url : List Char
  query : List (List Char × List Char) := []

/-- What a request is answered. -/
abbrev Request.Answer (req : Request) : Type := req.kind.Answer

variable {σ Cmd : Type}

variable (σ Cmd) in
/-- A program that asks endpoints. -/
abbrev Rest (α : Type) : Type := Async σ Cmd (List Char) Request.Answer α

/-- Ask an endpoint. -/
def fetch (kind : Kind) (url : List Char) (query : List (List Char × List Char)) :
    Rest σ Cmd kind.Answer :=
  (request (Request.mk kind url query) : Rest σ Cmd (Request.mk kind url query).Answer)

/-! ### Pages -/

/-- How many nodes there are on a page. -/
def PAGE_SIZE : ℕ := 30

/-- What is asked for a page of a listing. -/
def pageQuery (reverse : Bool) (pageKey : Option (List Char)) : List (List Char × List Char) :=
  ("pagination.limit".toList, Nat.toDigits 10 PAGE_SIZE) ::
    ((if reverse then [("pagination.reverse".toList, "true".toList)] else []) ++
      (TreeNode.truthy pageKey).toList.map fun key => ("pagination.key".toList, key))

/-- Some nodes, and the key of the next page. -/
def paginated (nodes : List StateNode) (nextKey : Option (List Char)) :
    List StateNode × Option (List Char) :=
  (nodes, nextKey)

/-- The page of a listing: a leaf for each item. An empty key of the next page is none. -/
def listed {α : Type} (leaf : α → StateNode) (res : Listing α) :
    List StateNode × Option (List Char) :=
  paginated ((res.items.getD []).map leaf) (TreeNode.truthy res.nextKey)

/-- A folder without options. -/
def plain : FolderOpts := ⟨false, none, none, none⟩

/-- A folder that can be searched. -/
def searchFor (placeholder : String) : FolderOpts := ⟨true, some placeholder.toList, none, none⟩

/-- `String(value)`, which throws on an object that has a member `toString`. -/
def stringOf (d : Json.Doc) : Except (List Char) (List Char) :=
  match Js.docText d with
  | some text => .ok (Utf16.text text)
  | none => .error "Cannot convert object to primitive value".toList

/-- `JSON.stringify(value)` -/
def jsonOf (d : Json.Doc) : Except (List Char) (List Char) :=
  .ok (Utf16.text (Js.stringify d))

/-- The text of an object with the members that are there. -/
def jsonObject (members : List (String × Option Json.Doc)) : List Char :=
  Utf16.text (Js.stringify (.obj (members.filterMap fun m => m.2.map fun d => (Json.str m.1, d))))

/-- The leaves for the parameters of a module, each with its text. -/
def paramLeaves (text : Json.Doc → Except (List Char) (List Char)) (moduleName : List Char)
    (path : List (List Char)) (params : List (Json.Str × Json.Doc)) :
    Except (List Char) (List StateNode) :=
  (Js.entries params).mapM fun (k, v) => do
    return makeLeaf moduleName path (Utf16.text k) (← text v) ⟨none, none⟩

/-- The page of all parameters of a module. -/
def fetchParamLeaves (text : Json.Doc → Except (List Char) (List Char)) (moduleName url : List Char)
    (node : NodeData) : Rest σ Cmd (List StateNode × Option (List Char)) := do
  let params ← fetch .params url []
  let leaves ← fromExcept (paramLeaves text moduleName node.path (params.getD []))
  return paginated leaves none

/-! ### Bank -/

def fetchBank (rest : List Char) (node : NodeData) (pageKey : Option (List Char)) :
    Rest σ Cmd (List StateNode × Option (List Char)) :=
  if node.path.length = 1 then
    return paginated [makeFolder "bank".toList node.path "supply".toList plain,
      makeFolder "bank".toList node.path "balances".toList
        (searchFor "Enter address (neutron1...)")] none
  else if node.path.contains "supply".toList then do
    let res ← fetch .supply (rest ++ "/cosmos/bank/v1beta1/supply".toList) (pageQuery false pageKey)
    return listed (fun coin => makeLeaf "bank".toList node.path coin.denom coin.amount
      ⟨some "bank".toList, some (toHex ("supply/".toList ++ coin.denom))⟩) res
  else return paginated [] none

/-- The nodes for the balances of an address. -/
def balanceLeaves (path : List (List Char)) (key : List Char) (balances : List Coin) :
    List StateNode :=
  balances.map fun coin => makeLeaf "bank".toList (path ++ [key]) coin.denom coin.amount
    ⟨some "bank".toList, some (toHex ("balances/".toList ++ key ++ '/' :: coin.denom))⟩

/-- Nothing is found. -/
def notFound : SearchResult := ⟨false, none, none⟩

def searchBank (rest : List Char) (node : NodeData) (key : List Char) : Rest σ Cmd SearchResult :=
  if node.path.contains "balances".toList then
    tryCatch (do
      let res ← fetch .balances (rest ++ "/cosmos/bank/v1beta1/balances/".toList ++ key) []
      let balances := res.getD []
      if balances.length > 0 then
        return ⟨true, some (Nat.toDigits 10 balances.length ++ " tokens".toList),
          some (balanceLeaves node.path key balances)⟩
      else return notFound)
      fun _ => return notFound
  else return notFound

/-! ### Staking -/

def fetchStaking (rest : List Char) (node : NodeData) (pageKey : Option (List Char)) :
    Rest σ Cmd (List StateNode × Option (List Char)) :=
  if node.path.length = 1 then
    return paginated [makeFolder "staking".toList node.path "validators".toList plain,
      makeFolder "staking".toList node.path "params".toList plain] none
  else if node.path.contains "validators".toList then do
    let res ← fetch .validators (rest ++ "/cosmos/staking/v1beta1/validators".toList)
      (pageQuery false pageKey)
    return listed (fun v => makeLeaf "staking".toList node.path (v.moniker.getD v.operatorAddress)
      (jsonObject [("tokens", v.tokens), ("status", v.status), ("commission", v.rate)])
      ⟨none, none⟩) res
  else if node.path.contains "params".toList then
    fetchParamLeaves stringOf "staking".toList (rest ++ "/cosmos/staking/v1beta1/params".toList)
      node
  else return paginated [] none

/-! ### Gov -/

/-- The name of a proposal: its number and its title. -/
def Proposal.name (p : Proposal) : List Char :=
  '#' :: (p.proposalId.or p.id).getD "undefined".toList ++
    ' ' :: (p.contentTitle.or p.title).getD []

def fetchGov (rest : List Char) (node : NodeData) (pageKey : Option (List Char)) :
    Rest σ Cmd (List StateNode × Option (List Char)) :=
  if node.path.length = 1 then
    return paginated [makeFolder "gov".toList node.path "proposals".toList plain,
      makeFolder "gov".toList node.path "params".toList plain] none
  else if node.path.contains "proposals".toList then do
    let res ← fetch .proposals (rest ++ "/cosmos/gov/v1beta1/proposals".toList)
      (pageQuery true pageKey)
    return listed (fun p => makeLeaf "gov".toList node.path p.name p.status ⟨none, none⟩) res
  else if node.path.contains "params".toList then
    fetchParamLeaves stringOf "gov".toList
      (rest ++ "/cosmos/gov/v1beta1/params/tallying".toList) node
  else return paginated [] none

/-! ### IBC -/

def fetchIbc (rest : List Char) (node : NodeData) (pageKey : Option (List Char)) :
    Rest σ Cmd (List StateNode × Option (List Char)) :=
  if node.path.length = 1 then
    return paginated [makeFolder "ibc".toList node.path "clients".toList plain,
      makeFolder "ibc".toList node.path "connections".toList plain,
      makeFolder "ibc".toList node.path "channels".toList plain] none
  else if node.path.contains "clients".toList then do
    let res ← fetch .clientStates (rest ++ "/ibc/core/client/v1/client_states".toList)
      (pageQuery false pageKey)
    return listed (fun cs => makeLeaf "ibc".toList node.path cs.clientId
      (cs.chainId.getD "unknown".toList) ⟨none, none⟩) res
  else if node.path.contains "connections".toList then do
    let res ← fetch .connections (rest ++ "/ibc/core/connection/v1/connections".toList)
      (pageQuery false pageKey)
    return listed (fun c => makeLeaf "ibc".toList node.path c.id
      ("client: ".toList ++ c.clientId ++ ", state: ".toList ++ c.state) ⟨none, none⟩) res
  else if node.path.contains "channels".toList then do
    let res ← fetch .channels (rest ++ "/ibc/core/channel/v1/channels".toList)
      (pageQuery false pageKey)
    return listed (fun ch => makeLeaf "ibc".toList node.path (ch.portId ++ '/' :: ch.channelId)
      ("state: ".toList ++ ch.state ++ ", counterparty: ".toList
        ++ ch.counterparty.getD "undefined".toList) ⟨none, none⟩) res
  else return paginated [] none

/-! ### Wasm -/

def fetchWasm (rest : List Char) (node : NodeData) (pageKey : Option (List Char)) :
    Rest σ Cmd (List StateNode × Option (List Char)) :=
  if node.path.length = 1 then
    return paginated [makeFolder "wasm".toList node.path "codes".toList plain,
      makeFolder "wasm".toList node.path "contracts".toList
        (searchFor "Enter contract address (neutron1...)")] none
  else if node.path.contains "codes".toList ∧ node.path.length = 2 then do
    let res ← fetch .codeInfos (rest ++ "/cosmwasm/wasm/v1/code".toList) (pageQuery true pageKey)
    return listed (fun c => makeLeaf "wasm".toList node.path ("code ".toList ++ c.codeId)
      ("creator: ".toList ++ c.creator) ⟨none, none⟩) res
  else return paginated [] none

/-- A search for a contract by its address: first its info and then its state is fetched. What is
thrown on the way is caught. -/
def searchContracts (rest : List Char) (node : StateNode) (key : List Char) :
    Rest σ Cmd SearchResult :=
  tryCatch (do
    let url := rest ++ "/cosmwasm/wasm/v1/contract/".toList ++ key
    let contract ← fetch .contract url []
    let models ← fetch .models (url ++ "/state".toList)
      [("pagination.limit".toList, "100".toList)]
    match searchContract node key (some (contract, models)) with
    | some result => return result
    | none => throw "Invalid bech32 character".toList)
    fun _ => return notFound

/-! ### Distribution -/

def fetchDistribution (rest : List Char) (node : NodeData) :
    Rest σ Cmd (List StateNode × Option (List Char)) :=
  if node.path.length = 1 then
    return paginated [makeFolder "distribution".toList node.path "params".toList plain,
      makeFolder "distribution".toList node.path "community_pool".toList plain] none
  else if node.path.contains "params".toList then
    fetchParamLeaves stringOf "distribution".toList
      (rest ++ "/cosmos/distribution/v1beta1/params".toList) node
  else if node.path.contains "community_pool".toList then do
    let res ← fetch .pool (rest ++ "/cosmos/distribution/v1beta1/community_pool".toList) []
    return paginated ((res.getD []).map fun coin =>
      makeLeaf "distribution".toList node.path coin.denom coin.amount ⟨none, none⟩) none
  else return paginated [] none

/-! ### Mint -/

def fetchMint (rest : List Char) (node : NodeData) :
    Rest σ Cmd (List StateNode × Option (List Char)) :=
  if node.path.length = 1 then
    return paginated [makeFolder "mint".toList node.path "params".toList plain,
      makeFolder "mint".toList node.path "inflation".toList plain] none
  else if node.path.contains "params".toList then
    fetchParamLeaves stringOf "mint".toList (rest ++ "/cosmos/mint/v1beta1/params".toList) node
  else if node.path.contains "inflation".toList then do
    let inflation ← fetch .inflation (rest ++ "/cosmos/mint/v1beta1/inflation".toList) []
    return paginated [makeLeaf "mint".toList node.path "inflation".toList
      (inflation.getD "N/A".toList) ⟨none, none⟩] none
  else return paginated [] none

/-! ### Modules that show their parameters only -/

/-- The folder of the parameters of a module, or these. -/
def fetchParams (text : Json.Doc → Except (List Char) (List Char)) (moduleName url : String)
    (rest : List Char) (node : NodeData) : Rest σ Cmd (List StateNode × Option (List Char)) :=
  if node.path.length = 1 then
    return paginated [makeFolder moduleName.toList node.path "params".toList plain] none
  else if node.path.contains "params".toList then
    fetchParamLeaves text moduleName.toList (rest ++ url.toList) node
  else return paginated [] none

def fetchSlashing (rest : List Char) (node : NodeData) :
    Rest σ Cmd (List StateNode × Option (List Char)) :=
  fetchParams stringOf "slashing" "/cosmos/slashing/v1beta1/params" rest node

def fetchAuth (rest : List Char) (node : NodeData) :
    Rest σ Cmd (List StateNode × Option (List Char)) :=
  fetchParams stringOf "auth" "/cosmos/auth/v1beta1/params" rest node

def fetchInterchainTxs (rest : List Char) (node : NodeData) :
    Rest σ Cmd (List StateNode × Option (List Char)) :=
  fetchParams jsonOf "interchaintxs" "/neutron/interchaintxs/params" rest node

def fetchFeeBurner (rest : List Char) (node : NodeData) :
    Rest σ Cmd (List StateNode × Option (List Char)) :=
  fetchParams stringOf "feeburner" "/neutron/feeburner/params" rest node

def fetchCron (rest : List Char) (node : NodeData) :
    Rest σ Cmd (List StateNode × Option (List Char)) :=
  fetchParams stringOf "cron" "/neutron/cron/params" rest node

def fetchDex (rest : List Char) (node : NodeData) :
    Rest σ Cmd (List StateNode × Option (List Char)) :=
  fetchParams jsonOf "dex" "/neutron/dex/params" rest node

/-! ### Neutron -/

def fetchInterchainQueries (rest : List Char) (node : NodeData) (pageKey : Option (List Char)) :
    Rest σ Cmd (List StateNode × Option (List Char)) :=
  if node.path.length = 1 then
    return paginated
      [makeFolder "interchainqueries".toList node.path "registered_queries".toList plain,
        makeFolder "interchainqueries".toList node.path "params".toList plain] none
  else if node.path.contains "registered_queries".toList then do
    let res ← fetch .registeredQueries
      (rest ++ "/neutron/interchainqueries/registered_queries".toList) (pageQuery false pageKey)
    return listed (fun q => makeLeaf "interchainqueries".toList node.path
      ('#' :: q.id ++ " (".toList ++ q.queryType ++ ")".toList)
      (jsonObject [("owner", q.owner), ("keys", q.keys)]) ⟨none, none⟩) res
  else if node.path.contains "params".toList then
    fetchParamLeaves jsonOf "interchainqueries".toList
      (rest ++ "/neutron/interchainqueries/params".toList) node
  else return paginated [] none

def fetchTokenFactory (rest : List Char) (node : NodeData) :
    Rest σ Cmd (List StateNode × Option (List Char)) :=
  if node.path.length = 1 then
    return paginated [makeFolder "tokenfactory".toList node.path "params".toList plain,
      makeFolder "tokenfactory".toList node.path "denoms_from_creator".toList
        (searchFor "Enter creator address (neutron1...)")] none
  else if node.path.contains "params".toList then
    fetchParamLeaves jsonOf "tokenfactory".toList
      (rest ++ "/osmosis/tokenfactory/v1beta1/params".toList) node
  else return paginated [] none

def searchTokenFactory (rest : List Char) (node : NodeData) (key : List Char) :
    Rest σ Cmd SearchResult :=
  if node.path.contains "denoms_from_creator".toList then
    tryCatch (do
      let res ← fetch .denoms
        (rest ++ "/osmosis/tokenfactory/v1beta1/denoms_from_creator/".toList ++ key) []
      let denoms := res.getD []
      if denoms.length > 0 then
        return ⟨true, some (Nat.toDigits 10 denoms.length ++ " denoms".toList),
          some (denoms.map fun d =>
            makeLeaf "tokenfactory".toList (node.path ++ [key]) d d ⟨none, none⟩)⟩
      else return notFound)
      fun _ => return notFound
  else return notFound

/-! ### Registries -/

/-- The function that fetches the nodes of a module, if there is one. -/
def fetchers (moduleName : List Char) : Option (List Char → NodeData → Option (List Char) →
    Rest σ Cmd (List StateNode × Option (List Char))) :=
  match String.ofList moduleName with
  | "bank" => some fetchBank
  | "staking" => some fetchStaking
  | "gov" => some fetchGov
  | "ibc" => some fetchIbc
  | "wasm" => some fetchWasm
  | "distribution" => some fun rest node _ => fetchDistribution rest node
  | "mint" => some fun rest node _ => fetchMint rest node
  | "slashing" => some fun rest node _ => fetchSlashing rest node
  | "auth" => some fun rest node _ => fetchAuth rest node
  | "interchainqueries" => some fetchInterchainQueries
  | "interchaintxs" => some fun rest node _ => fetchInterchainTxs rest node
  | "feeburner" => some fun rest node _ => fetchFeeBurner rest node
  | "tokenfactory" => some fun rest node _ => fetchTokenFactory rest node
  | "cron" => some fun rest node _ => fetchCron rest node
  | "dex" => some fun rest node _ => fetchDex rest node
  | _ => none

end Explorer
