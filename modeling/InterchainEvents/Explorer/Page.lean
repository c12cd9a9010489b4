import InterchainEvents.Async.Tasks
import InterchainEvents.Explorer.Fetchers

/-!
# The explorer page

The page shows the tree of the modules of a chain. Its nodes are objects that the page, its
components and the calls that wait hold by reference; each node that is shown has a component, with
its own search field, search result and subscribe modal. Clicks and answers may come at any time and
in any order, also answers for nodes that are no longer shown.

The calls run as tasks of the event loop. What the page can be made to do is an `Event`.
-/

namespace Explorer

open Async

/-! ### Nodes and components -/

/-- A node as an object, which knows its children by reference. -/
structure Node extends NodeData where
  children : List ℕ
  isLoadMore : Bool := false

/-- The placeholder below the children of a folder, which loads more of them. -/
def makeLoadMore (moduleName : List Char) (path : List (List Char)) : Node where
  key := "__ load_more __".toList
  value := none
  moduleName := moduleName
  path := path
  hasChildren := false
  children := []
  isLoadMore := true

/-- What a subscribe modal is opened with. Without a node it takes that of its component. -/
structure Opening where
  node : Option NodeData := none
  preCondition : Option (List Char) := none
  preValue : Option (List Char) := none
  preSearchKey : Option (List Char) := none

/-- The modal that is opened, on a node of a component. -/
def Opening.modal (opening : Opening) (node : NodeData) : TreeNode.Modal :=
  ⟨⟨opening.node.getD node, []⟩, opening.preCondition, opening.preValue, opening.preSearchKey⟩

/-- The answer to a search, with its nodes by reference. -/
structure Found where
  found : Bool
  value : Option (List Char)
  children : Option (List ℕ)

/-- Where a component stands: at the top, for a child of the node of another component, or for a
node of the search result of another. -/
inductive Spot where
  | top
  | child (parent : ℕ)
  | result (parent : ℕ)
  deriving DecidableEq

/-- The component of a node. -/
structure Component where
  spot : Spot
  node : ℕ
  searchInput : List Char := []
  searching : Bool := false
  searchResult : Option Found := none
  displayedSearchCount : ℕ := PAGE_SIZE
  showModal : Bool := false
  opening : Opening := {}

/-- A chain that can be explored. -/
structure Chain where
  id : List Char
  rest : List Char
  modules : List (List Char)

def chains : List Chain :=
  [⟨"neutron".toList, "https://rest-kralum.neutron-1.neutron.org".toList,
    ["bank".toList, "wasm".toList, "staking".toList, "gov".toList, "ibc".toList,
      "distribution".toList, "slashing".toList, "mint".toList, "auth".toList, "dex".toList,
      "cron".toList, "interchaintxs".toList, "interchainqueries".toList, "feeburner".toList,
      "tokenfactory".toList]⟩]

/-- The state of the page: all nodes ever made, those at the top, the error that is shown, the
chain that is selected, and all components ever mounted. -/
structure Page where
  nodes : List Node
  tree : List ℕ
  error : Option (List Char)
  selectedChain : Option Chain
  components : List Component

namespace Page

/-- The page before anything is shown. -/
def initial : Page := ⟨[], [], none, chains.head?, []⟩

/-- A call of the page. -/
abbrev Task (α : Type) : Type := Rest Page (Page → Page) α

/-! ### Changes -/

/-- What a command does. -/
def apply (command : Page → Page) (s : Page) : Page := command s

/-- A node is changed. -/
def setNode (n : ℕ) (f : Node → Node) (s : Page) : Page :=
  { s with nodes := s.nodes.modify n f }

/-- A component is changed. -/
def setComponent (c : ℕ) (f : Component → Component) (s : Page) : Page :=
  { s with components := s.components.modify c f }

def setError (error : Option (List Char)) (s : Page) : Page :=
  { s with error := error }

def setLoading (n : ℕ) (loading : Bool) : Page → Page :=
  setNode n fun node => { node with loading := loading }

def setExpanded (n : ℕ) (expanded : Bool) : Page → Page :=
  setNode n fun node => { node with expanded := expanded }

mutual

/-- A node becomes an object, after its children. -/
def create (nodes : List Node) : StateNode → List Node × ℕ
  | ⟨data, children⟩ =>
      let (nodes, handles) := createAll nodes children
      (nodes ++ [{ toNodeData := data, children := handles }], nodes.length)

/-- Nodes become objects. -/
def createAll (nodes : List Node) : List StateNode → List Node × List ℕ
  | [] => (nodes, [])
  | x :: xs =>
      let (nodes, handle) := create nodes x
      let (nodes, handles) := createAll nodes xs
      (nodes, handle :: handles)

end

/-- The node is a placeholder. -/
def isLoadMore (s : Page) (n : ℕ) : Bool :=
  s.nodes[n]?.any (·.isLoadMore)

/-- The children of a node, as they are. -/
def childrenOf (s : Page) (node : Node) : List Node :=
  node.children.filterMap fun c => s.nodes[c]?

/-- A node with what its children hold. -/
def view (s : Page) (node : Node) : StateNode :=
  ⟨node.toNodeData, (s.childrenOf node).map fun child => ⟨child.toNodeData, []⟩⟩

/-! ### The explorer's functions -/

/-- The modules are shown, collapsed. -/
def setModules (modules : List (List Char)) (s : Page) : Page :=
  let (nodes, handles) := createAll s.nodes (modules.map fun m => makeFolder m [] m plain)
  { s with nodes := nodes, tree := handles, error := none }

def setNextPageKey (n : ℕ) (nextKey : Option (List Char)) : Page → Page :=
  setNode n fun node => { node with nextPageKey := nextKey }

def setChildren (n : ℕ) (children : List ℕ) : Page → Page :=
  setNode n fun node => { node with children := children }

def pushChildren (n : ℕ) (children : List ℕ) : Page → Page :=
  setNode n fun node => { node with children := node.children ++ children }

/-- The placeholders among the children of a node are removed. -/
def removeLoadMore (n : ℕ) (s : Page) : Page :=
  s.setNode n fun node => { node with children := node.children.filter fun c => !s.isLoadMore c }

/-- A placeholder is added to the children of a node. -/
def pushLoadMore (n : ℕ) (s : Page) : Page :=
  match s.nodes[n]? with
  | some node =>
      { s with nodes := s.nodes ++ [makeLoadMore node.moduleName node.path] }.pushChildren n
        [s.nodes.length]
  | none => s

/-- A node without children does not have any. -/
def closeEmpty (n : ℕ) : Page → Page :=
  setNode n fun node => { node with hasChildren := node.hasChildren && node.children ≠ [] }

/-- What is done with a page of children when it comes. -/
def receive (n : ℕ) (pageKey : Option (List Char)) (nodes : List StateNode)
    (nextKey : Option (List Char)) (s : Page) : Page :=
  let (heap, handles) := createAll s.nodes nodes
  let s := { s with nodes := heap }.setNextPageKey n nextKey
  let s := s.removeLoadMore n
  let s :=
    if (TreeNode.truthy pageKey).isSome then s.pushChildren n handles else s.setChildren n handles
  let s := if (TreeNode.truthy nextKey).isSome then s.pushLoadMore n else s
  s.closeEmpty n

/-- Fetch the children of a node. -/
def fetchChildren (n : ℕ) (rest : List Char) (pageKey : Option (List Char)) : Task Unit := do
  let s ← shared
  match s.nodes[n]? with
  | none => return ()
  | some node =>
      match fetchers node.moduleName with
      | none => return ()
      | some fetcher => do
          let (nodes, nextKey) ← fetcher rest node.toNodeData pageKey
          perform (receive n pageKey nodes nextKey)

/-- The error of a call for a module. -/
def failed (node : Node) (e : List Char) : Page → Page :=
  setError (some (node.moduleName ++ ": ".toList ++ e))

/-- Expand a node, or collapse it. Its children are fetched if it has none yet. -/
def toggleNode (n : ℕ) (rest : List Char) : Task Unit := do
  let s ← shared
  match s.nodes[n]? with
  | none => return ()
  | some node =>
      if node.expanded then perform (setExpanded n false)
      else do
        perform (setExpanded n true)
        if node.children = [] ∧ node.hasChildren then do
          perform fun s => (s.setLoading n true).setError none
          tryCatch (fetchChildren n rest none) fun e => perform (failed node e)
          perform (setLoading n false)

/-- A placeholder is loading or not, if there is one. -/
def setMoreLoading (loadMoreNode : Option ℕ) (loading : Bool) (s : Page) : Page :=
  match loadMoreNode with
  | some more => s.setLoading more loading
  | none => s

/-- Fetch the next page of the children of a node. -/
def loadMore (n : ℕ) (rest : List Char) : Task Unit := do
  let s ← shared
  match s.nodes[n]? with
  | none => return ()
  | some node =>
      if (TreeNode.truthy node.nextPageKey).isNone then return ()
      else do
        let loadMoreNode := node.children.find? s.isLoadMore
        perform fun s => (s.setMoreLoading loadMoreNode true).setError none
        tryCatch (fetchChildren n rest node.nextPageKey) fun e => perform (failed node e)
        perform (setMoreLoading loadMoreNode false)

/-- A search in a folder of the module `wasm`. In the folder of a namespace a key that is not there
is kept with the node, to be watched. -/
def searchWasm (n : ℕ) (rest key : List Char) : Task SearchResult := do
  let s ← shared
  match s.nodes[n]? with
  | none => return notFound
  | some node =>
      match TreeNode.truthy node.ns, TreeNode.truthy node.contractAddr with
      | some ns, some contractAddr =>
          match searchNamespace (s.view node) contractAddr ns key with
          | some (searched, result) => do
              perform (setNode n fun node =>
                { node with
                  pendingWatchKey := searched.pendingWatchKey
                  pendingStoreKey := searched.pendingStoreKey })
              return result
          | none => do
              perform (setNode n fun node => { node with pendingWatchKey := some key })
              throw "Invalid bech32 character".toList
      | _, _ =>
          if node.path.contains "contracts".toList then searchContracts rest (s.view node) key
          else return notFound

/-- The search function of a module, or that nothing is found. -/
def searchers (n : ℕ) (node : Node) (rest key : List Char) : Task SearchResult :=
  match String.ofList node.moduleName with
  | "bank" => searchBank rest node.toNodeData key
  | "wasm" => searchWasm n rest key
  | "tokenfactory" => searchTokenFactory rest node.toNodeData key
  | _ => return notFound

/-- Search for a key: first among the children that are loaded. -/
def searchKey (n : ℕ) (rest key : List Char) : Task SearchResult := do
  let s ← shared
  match s.nodes[n]? with
  | none => return notFound
  | some node =>
      match (s.childrenOf node).find? fun c => !c.isLoadMore && c.key = key with
      | some existing => return ⟨true, existing.value, none⟩
      | none => searchers n node rest key

/-! ### The chains -/

/-- The chain with an identifier is selected, if there is one. -/
def selectChain (chainId : List Char) (s : Page) : Page :=
  { s with selectedChain := chains.find? (·.id = chainId) }

/-- The modules of the selected chain are shown. -/
def showModules (s : Page) : Page :=
  match s.selectedChain with
  | some chain => s.setModules chain.modules
  | none => s

def onSelectChain (chainId : List Char) (s : Page) : Page :=
  (s.selectChain chainId).showModules

/-! ### The functions of a component -/

/-- The folder can be watched: it is not at the top. -/
def canWatchFolder (component : Component) (node : Node) : Bool :=
  node.hasChildren && component.spot ≠ .top

def canWatchLeaf (node : Node) : Bool :=
  !node.hasChildren && node.value.isSome

/-- There is a search field below the node. -/
def searchBar (component : Component) (node : Node) : Bool :=
  node.expanded && (node.searchable || canWatchFolder component node)

/-- The nodes of a search result. -/
def resultChildren (component : Component) : List ℕ :=
  match component.searchResult with
  | some result => if result.found then result.children.getD [] else []
  | none => []

/-- The nodes of the search result that are displayed below a folder that can be searched. -/
def displayedSearchChildren (component : Component) (node : Node) : List ℕ :=
  if node.searchable && searchBar component node then
    (resultChildren component).take component.displayedSearchCount
  else []

/-- The value that the search has found, where it is displayed with the buttons for conditions. -/
def foundValue (component : Component) (node : Node) : Option (Option (List Char)) :=
  match component.searchResult with
  | some result =>
      if searchBar component node && result.found &&
          (!node.searchable || (resultChildren component).isEmpty) then some result.value
      else none
  | none => none

/-- A click on the row of a node. -/
def onRowClick (n : ℕ) (node : Node) (rest : List Char) : Task Unit :=
  if node.hasChildren then toggleNode n rest
  else if node.value.isSome then perform (setExpanded n !node.expanded)
  else return ()

/-- The answer to a search is shown. -/
def showResult (c : ℕ) (result : SearchResult) (s : Page) : Page :=
  let (nodes, children) :=
    match result.children with
    | some children =>
        let (nodes, handles) := createAll s.nodes children
        (nodes, some handles)
    | none => (s.nodes, none)
  { s with nodes := nodes }.setComponent c fun component =>
    { component with searchResult := some ⟨result.found, result.value, children⟩ }

/-- Search for what was typed. -/
def onSearch (c : ℕ) (component : Component) (rest : List Char) : Task Unit :=
  if component.searchInput = [] then return ()
  else do
    perform (setComponent c fun component =>
      { component with searching := true, searchResult := none, displayedSearchCount := PAGE_SIZE })
    let finish := setComponent c fun component => { component with searching := false }
    tryCatch (do
      let result ← searchKey component.node rest component.searchInput
      perform (showResult c result))
      fun e => do
        perform finish
        throw e
    perform finish

/-- Subscribe with `Exists`: to the key that was searched for last, if that is known. -/
def openSubscribeExists (node : NodeData) (searchInput : List Char) : Opening :=
  match TreeNode.truthy node.pendingStoreKey with
  | some pendingStoreKey =>
      { node := some (TreeNode.syntheticNode ⟨node, []⟩ (node.pendingWatchKey.getD searchInput)
          pendingStoreKey).toNodeData
        preCondition := some "Exists".toList }
  | none => { preCondition := some "Exists".toList, preSearchKey := some searchInput }

/-- The button next to the search field: the modal for the key that was typed, if one was. -/
def openSubscribeForSearch (node : NodeData) (searchInput : List Char) : Option Opening :=
  if searchInput = [] then none
  else
    match TreeNode.truthy node.contractAddr, TreeNode.truthy node.ns with
    | some contractAddr, some ns =>
        some
          { node := some (TreeNode.syntheticNode ⟨node, []⟩ searchInput
              (TreeNode.fullStoreKey contractAddr ns searchInput)).toNodeData
            preCondition := some "Exists".toList }
    | _, _ => some (openSubscribeExists node searchInput)

/-- The modal is the one that a tree node opens. -/
theorem modal_openSubscribeForSearch (node : NodeData) (searchInput : List Char) :
  (openSubscribeForSearch node searchInput).map (Opening.modal · node)
    = TreeNode.openSubscribeForSearch ⟨node, []⟩ searchInput
  := by
  have hexists : (openSubscribeExists node searchInput).modal node
      = TreeNode.openSubscribeExists ⟨node, []⟩ searchInput := by
    rw [openSubscribeExists, TreeNode.openSubscribeExists]
    cases TreeNode.truthy node.pendingStoreKey <;> rfl
  rw [openSubscribeForSearch, TreeNode.openSubscribeForSearch]
  split_ifs
  · rfl
  · cases TreeNode.truthy node.contractAddr with
    | none => rw [← hexists, Option.map_some]
    | some contractAddr =>
        cases TreeNode.truthy node.ns with
        | none => rw [← hexists, Option.map_some]
        | some ns => rfl

/-- Subscribe to a child found by a search. -/
def openSubscribeForChild (child : NodeData) : Opening :=
  { node := some child, preValue := child.value }

/-- Subscribe with a condition, from a search result. -/
def openSubscribeWithCondition (condition : List Char) (value : Option (List Char))
    (searchInput : List Char) : Opening :=
  { preCondition := some condition, preValue := value, preSearchKey := some searchInput }

/-- A component opens its modal. -/
def openModal (c : ℕ) (opening : Opening) : Page → Page :=
  setComponent c fun component => { component with showModal := true, opening := opening }

/-! ### The modal -/

/-- The modal that a component shows. -/
def modal (s : Page) (c : ℕ) : Option TreeNode.Modal := do
  let component ← s.components[c]?
  let node ← s.nodes[component.node]?
  if component.showModal then some (component.opening.modal node.toNodeData) else none

/-! ### Events -/

/-- A node is displayed in a place. -/
def displays (s : Page) (n : ℕ) : Spot → Bool
  | .top => decide (n ∈ s.tree)
  | .child parent =>
      s.components[parent]?.any fun component =>
        s.nodes[component.node]?.any fun node => node.expanded && decide (n ∈ node.children)
  | .result parent =>
      s.components[parent]?.any fun component =>
        s.nodes[component.node]?.any fun node =>
          decide (n ∈ displayedSearchChildren component node) && s.nodes[n]?.any (·.hasChildren)

/-- What can happen to the page: it is mounted, a chain is selected, a component is mounted or gets
another node with the same key, or one uses a component. -/
inductive Event where
  | onMounted
  | onSelectChain (chainId : List Char)
  | mount (spot : Spot) (n : ℕ)
  | rebind (c n : ℕ)
  | typed (c : ℕ) (text : List Char)
  | rowClicked (c : ℕ)
  | loadMoreClicked (c : ℕ)
  | searched (c : ℕ)
  | moreResultsClicked (c : ℕ)
  | leafWatched (c : ℕ)
  | searchWatched (c : ℕ)
  | childWatched (c n : ℕ)
  | conditionClicked (c : ℕ) (condition : List Char)
  | closed (c : ℕ)

/-- What is done at a component that shows a node of the selected chain, not being a placeholder. -/
def atNode (c : ℕ) (f : Component → Node → Chain → Task Unit) : Task Unit := do
  let s ← shared
  match s.components[c]? with
  | none => return ()
  | some component =>
      match s.nodes[component.node]?, s.selectedChain with
      | some node, some chain => if node.isLoadMore then return () else f component node chain
      | _, _ => return ()

/-- The component of the node whose children a placeholder loads. -/
def parentOf : Spot → Option ℕ
  | .top => none
  | .child parent => some parent
  | .result parent => some parent

/-- The call that an event makes. What is not displayed cannot be used. -/
def Event.task : Event → Task Unit
  | .onMounted => perform showModules
  | .onSelectChain chainId => perform (Page.onSelectChain chainId)
  | .mount spot n =>
      perform fun s =>
        if s.displays n spot then { s with components := s.components ++ [{ spot, node := n }] }
        else s
  | .rebind c n =>
      perform fun s =>
        let sameKey := s.components[c]?.any fun component =>
          s.displays n component.spot &&
            s.nodes[n]?.map (·.key) = s.nodes[component.node]?.map (·.key)
        if sameKey then s.setComponent c fun component => { component with node := n } else s
  | .typed c text =>
      atNode c fun component node _ =>
        if searchBar component node then
          perform (setComponent c fun component => { component with searchInput := text })
        else return ()
  | .rowClicked c => atNode c fun component node chain => onRowClick component.node node chain.rest
  | .loadMoreClicked c => do
      let s ← shared
      match s.components[c]? with
      | none => return ()
      | some placeholder =>
          match parentOf placeholder.spot, s.isLoadMore placeholder.node with
          | some parent, true =>
              atNode parent fun component _ chain => loadMore component.node chain.rest
          | _, _ => return ()
  | .searched c =>
      atNode c fun component node chain =>
        if searchBar component node then onSearch c component chain.rest else return ()
  | .moreResultsClicked c =>
      atNode c fun component node _ =>
        if searchBar component node ∧
            component.displayedSearchCount < (resultChildren component).length then
          perform (setComponent c fun component =>
            { component with displayedSearchCount := component.displayedSearchCount + PAGE_SIZE })
        else return ()
  | .leafWatched c =>
      atNode c fun _ node _ =>
        if canWatchLeaf node then perform (openModal c {}) else return ()
  | .searchWatched c =>
      atNode c fun component node _ =>
        if searchBar component node then
          match openSubscribeForSearch node.toNodeData component.searchInput with
          | some opening => perform (openModal c opening)
          | none => return ()
        else return ()
  | .childWatched c n => do
      let s ← shared
      atNode c fun component node _ =>
        match s.nodes[n]? with
        | some child =>
            if n ∈ displayedSearchChildren component node ∧ !child.hasChildren then
              perform (openModal c (openSubscribeForChild child.toNodeData))
            else return ()
        | none => return ()
  | .conditionClicked c condition =>
      atNode c fun component node _ =>
        match foundValue component node with
        | some value =>
            perform (openModal c
              (openSubscribeWithCondition condition value component.searchInput))
        | none => return ()
  | .closed c =>
      perform (setComponent c fun component => { component with showModal := false })

end Page

end Explorer

/-! ### What a modal shows -/

namespace TreeNode.Modal

/-- Real Merkle store name. -/
def storeName (modal : Modal) : List Char :=
  modal.node.storeName.getD modal.node.moduleName

/-- The current value: from the search result, or from the node. -/
def currentValue (modal : Modal) : Option (List Char) :=
  modal.preValue.or modal.node.value

/-- The path that is displayed. -/
def displayPath (modal : Modal) : List (List Char) :=
  modal.node.path ++ (truthy modal.preSearchKey).toList

/-- A form of the modal: its store and key are those of the modal, and the rest may be filled in
with anything. -/
def IsForm (modal : Modal) (form : Explorer.Form) : Prop :=
  form.storeName = String.ofList modal.storeName ∧
    form.storeKey = modal.storeKey.map String.ofList

end TreeNode.Modal
