import Mathlib.Data.List.Basic

/-!
# The tree of the explorer

The nodes of the tree that the explorer shows, as the page keeps them.
-/

namespace Explorer

/-! ### Nodes -/

/-- What a node of the tree holds besides its children. An absent member is `none`. -/
structure NodeData where
  key : List Char
  value : Option (List Char)
  moduleName : List Char
  path : List (List Char)
  hasChildren : Bool
  expanded : Bool := false
  loading : Bool := false
  nextPageKey : Option (List Char) := none
  searchable : Bool := false
  searchPlaceholder : Option (List Char) := none
  /-- Real Merkle store name for subscription (e.g. "bank", "wasm") -/
  storeName : Option (List Char) := none
  /-- Real IAVL key (hex) for subscription proof -/
  storeKey : Option (List Char) := none
  /-- The contract whose entries the folder holds. -/
  contractAddr : Option (List Char) := none
  /-- The namespace whose entries the folder holds. -/
  ns : Option (List Char) := none
  /-- A key that was searched for in the folder, but not found. -/
  pendingWatchKey : Option (List Char) := none
  pendingStoreKey : Option (List Char) := none

/-- A node of the tree. -/
structure StateNode extends NodeData where
  children : List StateNode

/-- What a leaf may be given. -/
structure LeafOpts where
  storeName : Option (List Char)
  storeKey : Option (List Char)

/-- What a folder may be given. -/
structure FolderOpts where
  searchable : Bool
  searchPlaceholder : Option (List Char)
  storeName : Option (List Char)
  storeKey : Option (List Char) := none

/-- A leaf under a path. -/
def makeLeaf (moduleName : List Char) (path : List (List Char)) (key value : List Char)
    (opts : LeafOpts) : StateNode where
  key := key
  value := some value
  moduleName := moduleName
  path := path ++ [key]
  hasChildren := false
  children := []
  storeName := opts.storeName
  storeKey := opts.storeKey

/-- An empty folder under a path. -/
def makeFolder (moduleName : List Char) (path : List (List Char)) (key : List Char)
    (opts : FolderOpts) : StateNode where
  key := key
  value := none
  moduleName := moduleName
  path := path ++ [key]
  hasChildren := true
  children := []
  searchable := opts.searchable
  searchPlaceholder := opts.searchPlaceholder
  storeName := opts.storeName
  storeKey := opts.storeKey

/-- The answer to a search in a folder. -/
structure SearchResult where
  found : Bool
  value : Option (List Char)
  children : Option (List StateNode) := none

/-! ### Leaves -/

mutual

/-- The leaves of a node. -/
def leaves : StateNode → List NodeData
  | ⟨data, children⟩ => if data.hasChildren then leavesOf children else [data]

/-- The leaves of nodes. -/
def leavesOf : List StateNode → List NodeData
  | [] => []
  | node :: nodes => leaves node ++ leavesOf nodes

end

theorem leaves_makeLeaf (moduleName : List Char) (path : List (List Char)) (key value : List Char)
    (opts : LeafOpts) :
  leaves (makeLeaf moduleName path key value opts)
    = [(makeLeaf moduleName path key value opts).toNodeData]
  := by
  simp [makeLeaf, leaves]

/-- The leaves of a folder are those of its children. -/
theorem leaves_of_hasChildren {node : StateNode} (h : node.hasChildren) :
  leaves node = leavesOf node.children
  := by
  obtain ⟨data, children⟩ := node
  rw [leaves, if_pos h]

theorem leavesOf_append (nodes nodes' : List StateNode) :
  leavesOf (nodes ++ nodes') = leavesOf nodes ++ leavesOf nodes'
  := by
  induction nodes with
  | nil => rfl
  | cons node nodes ih => rw [List.cons_append, leavesOf, leavesOf, ih, List.append_assoc]

theorem leavesOf_map {α : Type} (f : α → StateNode) (xs : List α) :
  leavesOf (xs.map f) = xs.flatMap fun x => leaves (f x)
  := by
  induction xs with
  | nil => rfl
  | cons x xs ih => rw [List.map_cons, leavesOf, ih, List.flatMap_cons]

end Explorer
