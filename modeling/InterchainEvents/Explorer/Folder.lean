import InterchainEvents.Explorer.TreeNode
import InterchainEvents.Platform.Linked
import InterchainEvents.Platform.Machine

/-!
# A folder that loads page by page

A click on the row of a folder asks for its first page, a click on the placeholder below its
children for the next one, and the answers come in any order, or not at all. All calls share the
children of the folder and the key of its next page, and none waits for another.

As long as every further page arrives while the folder still waits for that page, the children are
those of the first pages of the listing, with a placeholder if there are more. Otherwise a page is
repeated or skipped (`loaded_iff`).
-/

namespace Explorer.Folder

open Machine Paging

/-! ### The host -/

/-- A child of a folder: a node, or the placeholder that loads more, which is told from other
placeholders by its handle. -/
inductive Child where
  | node (node : StateNode)
  | loadMore (handle : ℕ) (loading : Bool)

/-- The child is a placeholder. -/
def Child.isLoadMore : Child → Bool
  | .node _ => false
  | .loadMore _ _ => true

/-- The handle of a placeholder. -/
def Child.handle : Child → Option ℕ
  | .node _ => none
  | .loadMore handle _ => some handle

/-- A call that waits for its answer, with what it knows from when it was made. -/
inductive Call where
  | toggleNode
  | loadMore (pageKey : Option (List Char)) (loadMoreNode : Option ℕ)

/-- The key of the page that is asked for. -/
def Call.pageKey : Call → Option (List Char)
  | .toggleNode => none
  | .loadMore pageKey _ => pageKey

/-- The state shared by the calls for a folder: the folder itself, and the error that is shown.
The calls that wait, and the handle of the next placeholder, are kept by the host. -/
structure State where
  node : NodeData
  children : List Child
  error : Option (List Char)
  calls : List Call
  nextHandle : ℕ

/-- A folder in which nothing has been clicked. -/
def State.initial (moduleName : List Char) (path : List (List Char)) (key : List Char)
    (opts : FolderOpts) : State where
  node := (makeFolder moduleName path key opts).toNodeData
  children := []
  error := none
  calls := []
  nextHandle := 0

/-- A placeholder is marked as loading, or not, if it is still there. -/
def State.setLoading (handle : ℕ) (loading : Bool) (s : State) : State :=
  { s with
    children := s.children.map fun c =>
      if c.handle = some handle then .loadMore handle loading else c }

/-! ### The functions of the explorer -/

/-- How the fetchers ask for a page: with its key, unless that is missing or empty. An empty key of
the next page is none. -/
def fetchPage (query : Option (List Char) → List StateNode × Option (List Char))
    (pageKey : Option (List Char)) : List StateNode × Option (List Char) :=
  let (nodes, nextKey) := query (TreeNode.truthy pageKey)
  (nodes, TreeNode.truthy nextKey)

/-- What is done with an answer: the nodes of a page, and the key of the next one. -/
def fetchChildren (pageKey : Option (List Char))
    (answer : List StateNode × Option (List Char)) (s : State) : State :=
  let (nodes, nextKey) := answer
  let s := { s with
    node := { s.node with nextPageKey := nextKey }
    children := s.children.filter (!·.isLoadMore) }
  let s :=
    if (TreeNode.truthy pageKey).isSome then { s with children := s.children ++ nodes.map .node }
    else { s with children := nodes.map .node }
  let s :=
    if (TreeNode.truthy nextKey).isSome then
      { s with
        children := s.children ++ [.loadMore s.nextHandle false]
        nextHandle := s.nextHandle + 1 }
    else s
  if s.children.length = 0 then { s with node := { s.node with hasChildren := false } } else s

/-- Expand the folder, or collapse it. The first page is asked for if there are no children. -/
def toggleNode (s : State) : State :=
  if s.node.expanded then { s with node := { s.node with expanded := false } }
  else
    let s := { s with node := { s.node with expanded := true } }
    if s.children.length = 0 ∧ s.node.hasChildren then
      { s with
        node := { s.node with loading := true }
        error := none
        calls := s.calls ++ [.toggleNode] }
    else s

/-- Ask for the next page. -/
def loadMore (s : State) : State :=
  if (TreeNode.truthy s.node.nextPageKey).isNone then s
  else
    let loadMoreNode := s.children.findSome? Child.handle
    let s := match loadMoreNode with
      | some handle => s.setLoading handle true
      | none => s
    { s with
      error := none
      calls := s.calls ++ [.loadMore s.node.nextPageKey loadMoreNode] }

/-- The end of a call, whether or not it has failed. -/
def Call.finish (s : State) : Call → State
  | .toggleNode => { s with node := { s.node with loading := false } }
  | .loadMore _ (some handle) => s.setLoading handle false
  | .loadMore _ none => s

/-- The error that is shown when a call has failed. -/
def errorText (s : State) (message : List Char) : List Char :=
  s.node.moduleName ++ ": ".toList ++ message

/-! ### The functions of the page -/

/-- A click on the row of the folder. -/
def onRowClick (s : State) : State :=
  if s.node.hasChildren then toggleNode s
  else if s.node.value.isSome then
    { s with node := { s.node with expanded := !s.node.expanded } }
  else s

/-- What can happen: a click on the row, a click on the placeholder, the answer to a call, the
failure of a call. -/
inductive Action where
  | clickRow
  | clickLoadMore
  | arrive (call : ℕ)
  | fail (call : ℕ) (message : List Char)

/-- What an action does, given what the chain has for each query. Only a placeholder that is shown
can be clicked, and only a call that waits can end. -/
def step (query : Option (List Char) → List StateNode × Option (List Char)) (s : State) :
    Action → Option State
  | .clickRow => some (onRowClick s)
  | .clickLoadMore =>
      if s.node.expanded ∧ s.children.any Child.isLoadMore then some (loadMore s) else none
  | .arrive call =>
      s.calls[call]?.map fun c =>
        c.finish (fetchChildren c.pageKey (fetchPage query c.pageKey)
          { s with calls := s.calls.eraseIdx call })
  | .fail call message =>
      s.calls[call]?.map fun c =>
        c.finish { s with
          error := some (errorText s message)
          calls := s.calls.eraseIdx call }

/-! ### What a folder shows -/

variable {pages : Pages (List Char) StateNode}

/-- The children are the nodes of the pages `0, …, k`, then one placeholder if there are more
pages, and the next page is the one after them. -/
structure Shows (pages : Pages (List Char) StateNode) (k : ℕ) (s : State) : Prop where
  le_last : k ≤ pages.last
  children : ∃ placeholders : List Child,
    s.children = (returned pages.page (k + 1)).map .node ++ placeholders ∧
      (∀ c ∈ placeholders, c.isLoadMore) ∧ placeholders.length = if k < pages.last then 1 else 0
  nextPageKey : s.node.nextPageKey = if k < pages.last then some (pages.key (k + 1)) else none

/-- There are no children, or they are those of the first pages. -/
def Loaded (pages : Pages (List Char) StateNode) (s : State) : Prop :=
  s.children = [] ∨ ∃ k, Shows pages k s

/-- A call that asked for a further page is outdated when the folder does not wait for that page
any more: the key it asked with is not that of the next page. -/
def Call.Outdated (s : State) : Call → Prop
  | .toggleNode => False
  | .loadMore pageKey _ => s.node.nextPageKey ≠ pageKey

/-- The answer to an outdated call arrives. -/
def Stale (s : State) : Action → Prop
  | .arrive call => ∃ c ∈ s.calls[call]?, c.Outdated s
  | _ => False

instance (s : State) : DecidablePred (Call.Outdated s)
  | .toggleNode => inferInstanceAs (Decidable False)
  | .loadMore pageKey _ => inferInstanceAs (Decidable (s.node.nextPageKey ≠ pageKey))

instance (s : State) : DecidablePred (Stale s)
  | .arrive call => inferInstanceAs (Decidable (∃ c ∈ s.calls[call]?, c.Outdated s))
  | .clickRow | .clickLoadMore | .fail _ _ => inferInstanceAs (Decidable False)

/-! ### Shapes -/

/-- The node that a child is. A placeholder is none. -/
def Child.node? : Child → Option StateNode
  | .node n => some n
  | .loadMore _ _ => none

/-- The children without what distinguishes placeholders. -/
def State.shape (s : State) : List (Option StateNode) :=
  s.children.map Child.node?

theorem Child.node?_eq_some {c : Child} {node : StateNode} :
  c.node? = some node ↔ c = .node node
  := by
  cases c <;> simp [Child.node?]

theorem Child.isLoadMore_iff {c : Child} :
  c.isLoadMore ↔ c.node? = none
  := by
  cases c <;> simp [Child.node?, Child.isLoadMore]

theorem map_node? {children : List Child} {nodes : List StateNode} :
  children.map Child.node? = nodes.map some ↔ children = nodes.map .node
  := by
  induction children generalizing nodes with
  | nil => cases nodes <;> simp
  | cons c children ih =>
      cases nodes with
      | nil => simp
      | cons node nodes => simp [Child.node?_eq_some, ih]

/-- What a folder shows can be told from the shape of its children. -/
theorem shows_iff {k : ℕ} {s : State} :
  Shows pages k s ↔ k ≤ pages.last ∧
    s.shape = (returned pages.page (k + 1)).map some
      ++ List.replicate (if k < pages.last then 1 else 0) none ∧
    s.node.nextPageKey = pages.cursor (k + 1)
  := by
  have hcursor : pages.cursor (k + 1)
      = if k < pages.last then some (pages.key (k + 1)) else none := by
    apply if_congr _ rfl rfl
    omega
  rw [hcursor]
  constructor
  · rintro ⟨hle, ⟨placeholders, hchildren, hmore, hlength⟩, hkey⟩
    refine ⟨hle, ?_, hkey⟩
    rw [State.shape, hchildren, List.map_append, map_node?.mpr rfl]
    congr 1
    apply List.eq_replicate_iff.mpr
    use by rw [List.length_map, hlength]
    intro x hx
    obtain ⟨c, hc, rfl⟩ := List.mem_map.mp hx
    apply Child.isLoadMore_iff.mp (hmore c hc)
  · rintro ⟨hle, hshape, hkey⟩
    obtain ⟨nodes, placeholders, hchildren, hnodes, hmore⟩ := List.map_eq_append_iff.mp hshape
    refine ⟨hle, ⟨placeholders, ?_, ?_, ?_⟩, hkey⟩
    · rw [hchildren, map_node?.mp hnodes]
    · intro c hc
      apply Child.isLoadMore_iff.mpr
      apply List.eq_of_mem_replicate (n := if k < pages.last then 1 else 0)
      rw [← hmore]
      apply List.mem_map_of_mem hc
    · rw [← List.length_map, hmore, List.length_replicate]

/-! ### What the functions do with the shape -/

theorem shape_setLoading (handle : ℕ) (loading : Bool) (s : State) :
  (s.setLoading handle loading).shape = s.shape
  := by
  rw [State.shape, State.setLoading, List.map_map]
  apply List.map_congr_left
  intro c _
  cases c with
  | node n => simp [Child.handle]
  | loadMore handle' loading' =>
      rw [Function.comp_apply]
      split_ifs <;> rfl

theorem shape_filter (s : State) :
  (s.children.filter (!·.isLoadMore)).map Child.node? = s.shape.filter Option.isSome
  := by
  rw [State.shape, List.filter_map]
  congr 1
  apply List.filter_congr
  intro c _
  cases c <;> rfl

theorem shape_fetchChildren (pageKey : Option (List Char)) (nodes : List StateNode)
    (nextKey : Option (List Char)) (s : State) :
  (fetchChildren pageKey (nodes, nextKey) s).shape
    = (if (TreeNode.truthy pageKey).isSome then s.shape.filter Option.isSome else [])
      ++ nodes.map some ++ if (TreeNode.truthy nextKey).isSome then [none] else []
  := by
  rw [← shape_filter]
  unfold fetchChildren State.shape
  dsimp only
  split_ifs <;> simp [Child.node?, Function.comp_def]

theorem nextPageKey_fetchChildren (pageKey : Option (List Char)) (nodes : List StateNode)
    (nextKey : Option (List Char)) (s : State) :
  (fetchChildren pageKey (nodes, nextKey) s).node.nextPageKey = nextKey
  := by
  unfold fetchChildren
  dsimp only
  split_ifs <;> rfl

theorem calls_fetchChildren (pageKey : Option (List Char))
    (answer : List StateNode × Option (List Char)) (s : State) :
  (fetchChildren pageKey answer s).calls = s.calls
  := by
  unfold fetchChildren
  dsimp only
  split_ifs <;> rfl

/-- The end of a call changes nothing but what is marked as loading. -/
theorem finish_eq (s : State) (c : Call) :
  (c.finish s).shape = s.shape ∧ (c.finish s).node.nextPageKey = s.node.nextPageKey ∧
    (c.finish s).calls = s.calls
  := by
  cases c with
  | toggleNode => exact ⟨rfl, rfl, rfl⟩
  | loadMore pageKey loadMoreNode =>
      cases loadMoreNode with
      | some handle => exact ⟨shape_setLoading handle false s, rfl, rfl⟩
      | none => exact ⟨rfl, rfl, rfl⟩

theorem toggleNode_eq (s : State) :
  (toggleNode s).shape = s.shape ∧ (toggleNode s).node.nextPageKey = s.node.nextPageKey ∧
    ∀ c ∈ (toggleNode s).calls, c ∈ s.calls ∨ c = .toggleNode
  := by
  unfold toggleNode
  dsimp only
  split_ifs
  · exact ⟨rfl, rfl, fun c hc => .inl hc⟩
  · refine ⟨rfl, rfl, ?_⟩
    intro c hc
    rcases List.mem_append.mp hc with hc | hc
    · exact .inl hc
    · exact .inr (List.mem_singleton.mp hc)
  · exact ⟨rfl, rfl, fun c hc => .inl hc⟩

/-- A click on the row keeps the children, and asks for no further page. -/
theorem onRowClick_eq (s : State) :
  (onRowClick s).shape = s.shape ∧ (onRowClick s).node.nextPageKey = s.node.nextPageKey ∧
    ∀ c ∈ (onRowClick s).calls, c ∈ s.calls ∨ c = .toggleNode
  := by
  unfold onRowClick
  split_ifs
  · apply toggleNode_eq
  · exact ⟨rfl, rfl, fun c hc => .inl hc⟩
  · exact ⟨rfl, rfl, fun c hc => .inl hc⟩

/-- A click on the placeholder keeps the children, and asks for the page that the folder waits
for. -/
theorem loadMore_eq (s : State) :
  (loadMore s).shape = s.shape ∧ (loadMore s).node.nextPageKey = s.node.nextPageKey ∧
    ∀ c ∈ (loadMore s).calls, c ∈ s.calls ∨
      s.node.nextPageKey ≠ none ∧ ∃ loadMoreNode, c = .loadMore s.node.nextPageKey loadMoreNode
  := by
  unfold loadMore
  split_ifs with hkey
  · exact ⟨rfl, rfl, fun c hc => .inl hc⟩
  · have hne : s.node.nextPageKey ≠ none := by
      intro hnone
      simp [hnone, TreeNode.truthy] at hkey
    have hcalls : ∀ loadMoreNode, ∀ c ∈ s.calls ++ [Call.loadMore s.node.nextPageKey loadMoreNode],
        c ∈ s.calls ∨ s.node.nextPageKey ≠ none ∧
          ∃ loadMoreNode, c = .loadMore s.node.nextPageKey loadMoreNode := by
      intro loadMoreNode c hc
      rcases List.mem_append.mp hc with hc | hc
      · exact .inl hc
      · exact .inr ⟨hne, loadMoreNode, List.mem_singleton.mp hc⟩
    dsimp only
    cases s.children.findSome? Child.handle with
    | some handle => exact ⟨shape_setLoading handle true s, rfl, hcalls (some handle)⟩
    | none => exact ⟨rfl, rfl, hcalls none⟩

/-! ### What a step does -/

variable {query : Option (List Char) → List StateNode × Option (List Char)}

/-- What an answer leaves behind. -/
structure Arrives (query : Option (List Char) → List StateNode × Option (List Char))
    (s : State) (c : Call) (s' : State) : Prop where
  shape : s'.shape
    = (if (TreeNode.truthy c.pageKey).isSome then s.shape.filter Option.isSome else [])
      ++ (fetchPage query c.pageKey).1.map some
      ++ if (TreeNode.truthy (fetchPage query c.pageKey).2).isSome then [none] else []
  nextPageKey : s'.node.nextPageKey = (fetchPage query c.pageKey).2
  calls : ∀ c' ∈ s'.calls, c' ∈ s.calls

/-- All but the answers keep the children and the next page, and of a further page they ask only
for that one, and only if there are children. -/
structure Keeps (s s' : State) : Prop where
  shape : s'.shape = s.shape
  nextPageKey : s'.node.nextPageKey = s.node.nextPageKey
  calls : ∀ c ∈ s'.calls, c ∈ s.calls ∨ c = .toggleNode ∨
    s.shape ≠ [] ∧ s.node.nextPageKey ≠ none ∧
      ∃ loadMoreNode, c = .loadMore s.node.nextPageKey loadMoreNode

theorem step_cases {s s' : State} {a : Action} (h : step query s a = some s') :
  (¬ Stale s a ∧ Keeps s s') ∨
    ∃ call, a = .arrive call ∧ ∃ c, s.calls[call]? = some c ∧ Arrives query s c s'
  := by
  cases a with
  | clickRow =>
      obtain rfl := Option.some.inj h
      obtain ⟨hshape, hkey, hcalls⟩ := onRowClick_eq s
      left
      refine ⟨id, hshape, hkey, ?_⟩
      intro c hc
      rcases hcalls c hc with hc | hc
      · exact .inl hc
      · exact .inr (.inl hc)
  | clickLoadMore =>
      obtain ⟨⟨-, hmore⟩, h⟩ := Option.ite_none_right_eq_some.mp h
      obtain rfl := Option.some.inj h
      obtain ⟨hshape, hkey, hcalls⟩ := loadMore_eq s
      have hne : s.shape ≠ [] := by
        intro hnil
        rw [List.map_eq_nil_iff.mp hnil] at hmore
        contradiction
      left
      refine ⟨id, hshape, hkey, ?_⟩
      intro c hc
      rcases hcalls c hc with hc | hc
      · exact .inl hc
      · exact .inr (.inr ⟨hne, hc⟩)
  | arrive call =>
      obtain ⟨c, hc, rfl⟩ := Option.map_eq_some_iff.mp h
      obtain ⟨hshape, hkey, hcalls⟩ := finish_eq
        (fetchChildren c.pageKey (fetchPage query c.pageKey)
          { s with calls := s.calls.eraseIdx call }) c
      right
      refine ⟨call, rfl, c, hc, ?_, ?_, ?_⟩
      · rw [hshape, shape_fetchChildren]
        rfl
      · rw [hkey, nextPageKey_fetchChildren]
      · intro c' hc'
        rw [hcalls, calls_fetchChildren] at hc'
        apply List.mem_of_mem_eraseIdx hc'
  | fail call message =>
      obtain ⟨c, -, rfl⟩ := Option.map_eq_some_iff.mp h
      obtain ⟨hshape, hkey, hcalls⟩ := finish_eq
        { s with error := some (errorText s message), calls := s.calls.eraseIdx call } c
      left
      refine ⟨id, hshape, hkey, ?_⟩
      intro c' hc'
      rw [hcalls] at hc'
      exact .inl (List.mem_of_mem_eraseIdx hc')

/-! ### Which pages are asked for -/

/-- The folder waits for a page of the listing, or for none, and so does each call. -/
structure Known (pages : Pages (List Char) StateNode) (s : State) : Prop where
  nextPageKey : ∃ k ≤ pages.last, s.node.nextPageKey = pages.cursor (k + 1)
  calls : ∀ c ∈ s.calls, c = .toggleNode ∨ ∃ k loadMoreNode,
    (0 < k ∧ k ≤ pages.last) ∧ c = .loadMore (pages.cursor k) loadMoreNode

theorem known_initial (moduleName : List Char) (path : List (List Char)) (key : List Char)
    (opts : FolderOpts) :
  Known pages (.initial moduleName path key opts)
  where
  nextPageKey := ⟨pages.last, Nat.le_refl _, Pages.cursor_succ_last.symm⟩
  calls _ hc := absurd hc List.not_mem_nil

/-- What a call asks for, as a number of a page. -/
theorem Known.exists_page {s : State} (hs : Known pages s) {c : Call} (hc : c ∈ s.calls) :
  ∃ k ≤ pages.last, c.pageKey = pages.cursor k
  := by
  rcases hs.calls c hc with rfl | ⟨k, loadMoreNode, ⟨-, hk⟩, rfl⟩
  · exact ⟨0, Nat.zero_le _, Pages.cursor_zero.symm⟩
  · exact ⟨k, hk, rfl⟩

theorem Known.step {s s' : State} {a : Action} (hlinked : Linked (fetchPage query) pages)
    (hs : Known pages s) (h : step query s a = some s') :
  Known pages s'
  := by
  rcases step_cases h with ⟨-, hkeeps⟩ | ⟨call, rfl, c, hc, harrives⟩
  · constructor
    case nextPageKey =>
      rw [hkeeps.nextPageKey]
      apply hs.nextPageKey
    case calls =>
      intro c hc
      rcases hkeeps.calls c hc with hc | rfl | ⟨-, hne, loadMoreNode, rfl⟩
      · apply hs.calls c hc
      · exact .inl rfl
      · obtain ⟨k, hk, hkey⟩ := hs.nextPageKey
        obtain ⟨key, hsome⟩ := Option.ne_none_iff_exists'.mp hne
        have hcursor := Pages.cursor_eq_some.mp (hkey.symm.trans hsome)
        rw [hkey]
        exact .inr ⟨k + 1, loadMoreNode, hcursor.1, rfl⟩
  · constructor
    case nextPageKey =>
      obtain ⟨k, hk, hpageKey⟩ := hs.exists_page (List.mem_of_getElem? hc)
      use k, hk
      rw [harrives.nextPageKey, hpageKey, hlinked k hk]
    case calls =>
      intro c' hc'
      apply hs.calls c' (harrives.calls c' hc')

/-- The keys of a listing are not empty. -/
theorem truthy_cursor (hlinked : Linked (fetchPage query) pages) (k : ℕ) :
  TreeNode.truthy (pages.cursor k) = pages.cursor k
  := by
  cases k with
  | zero =>
      rw [Pages.cursor_zero]
      rfl
  | succ k =>
      by_cases hk : k ≤ pages.last
      · rw [show pages.cursor (k + 1) = TreeNode.truthy _ from
          (congrArg Prod.snd (hlinked k hk)).symm]
        simp [TreeNode.truthy, Option.filter_filter]
      · rw [Pages.cursor_eq_none.mpr fun h => hk (Nat.le_of_succ_le h.2)]
        rfl

/-- A key counts as true where there is a page to ask for. -/
theorem isSome_truthy_cursor (hlinked : Linked (fetchPage query) pages) {k : ℕ} :
  (TreeNode.truthy (pages.cursor k)).isSome ↔ 0 < k ∧ k ≤ pages.last
  := by
  rw [truthy_cursor hlinked, Option.isSome_iff_ne_none, Ne, Pages.cursor_eq_none, not_not]

/-! ### Answers -/

/-- What the folder shows after a page has arrived. What was there before stays, unless it is the
first page that arrives. -/
theorem Arrives.shape_eq {s s' : State} {c : Call} (hlinked : Linked (fetchPage query) pages)
    (h : Arrives query s c s') {k : ℕ} (hk : k ≤ pages.last)
    (hpageKey : c.pageKey = pages.cursor k) :
  s'.shape = (if 0 < k then s.shape.filter Option.isSome else []) ++ (pages.page k).map some
    ++ List.replicate (if k < pages.last then 1 else 0) none
  := by
  rw [h.shape, hpageKey, hlinked k hk]
  simp only [isSome_truthy_cursor hlinked, hk, and_true, Nat.succ_pos, true_and, Nat.succ_le_iff]
  congr 1
  split_ifs <;> rfl

/-- After a page has arrived, the folder shows the pages up to this one if and only if it showed
those before. -/
theorem Arrives.shows_iff {s s' : State} {c : Call} (hlinked : Linked (fetchPage query) pages)
    (h : Arrives query s c s') {k j : ℕ} (hk : k ≤ pages.last)
    (hpageKey : c.pageKey = pages.cursor k) :
  Shows pages j s' ↔
    j = k ∧ (0 < k → s.shape.filter Option.isSome = (returned pages.page k).map some)
  := by
  have hkey : s'.node.nextPageKey = pages.cursor (k + 1) := by
    rw [h.nextPageKey, hpageKey, hlinked k hk]
  rw [Folder.shows_iff, h.shape_eq hlinked hk hpageKey, hkey, returned_succ, List.map_append]
  constructor
  · rintro ⟨hj, hshape, hcursor⟩
    obtain rfl := hlinked.cursor_succ_inj hk hj hcursor
    use rfl
    intro hpos
    have hnodes := List.append_cancel_right (List.append_cancel_right hshape)
    rwa [if_pos hpos] at hnodes
  · rintro ⟨rfl, hnodes⟩
    refine ⟨hk, ?_, rfl⟩
    rcases Nat.eq_zero_or_pos j with rfl | hpos
    · rfl
    · rw [if_pos hpos, hnodes hpos]

/-! ### Pages in their order -/

/-- Nothing has arrived yet. -/
structure Fresh (s : State) : Prop where
  shape : s.shape = []
  nextPageKey : s.node.nextPageKey = none
  calls : ∀ c ∈ s.calls, c = .toggleNode

/-- Nothing has arrived yet, or the folder shows the first pages. -/
def Tidy (pages : Pages (List Char) StateNode) (s : State) : Prop :=
  Fresh s ∨ ∃ k, Shows pages k s

theorem tidy_initial (moduleName : List Char) (path : List (List Char)) (key : List Char)
    (opts : FolderOpts) :
  Tidy pages (.initial moduleName path key opts)
  := .inl ⟨rfl, rfl, fun _ hc => absurd hc List.not_mem_nil⟩

theorem Tidy.loaded {s : State} (hs : Tidy pages s) :
  Loaded pages s
  := hs.imp_left fun h => List.map_eq_nil_iff.mp h.shape

/-- The nodes of the pages that the folder shows. -/
theorem Shows.filter_shape {s : State} {k : ℕ} (hs : Shows pages k s) :
  s.shape.filter Option.isSome = (returned pages.page (k + 1)).map some
  := by
  obtain ⟨-, hshape, -⟩ := shows_iff.mp hs
  rw [hshape, List.filter_append, List.filter_eq_self.mpr, List.filter_eq_nil_iff.mpr,
    List.append_nil]
  · intro x hx
    simp [List.eq_of_mem_replicate hx]
  · intro x hx
    obtain ⟨n, -, rfl⟩ := List.mem_map.mp hx
    rfl

theorem Tidy.keeps {s s' : State} (hs : Tidy pages s) (h : Keeps s s') :
  Tidy pages s'
  := by
  rcases hs with hs | ⟨k, hs⟩
  · left
    constructor
    · rw [h.shape, hs.shape]
    · rw [h.nextPageKey, hs.nextPageKey]
    · intro c hc
      rcases h.calls c hc with hc | hc | ⟨hne, -⟩
      · apply hs.calls c hc
      · apply hc
      · exact absurd hs.shape hne
  · right
    use k
    rw [shows_iff, h.shape, h.nextPageKey]
    apply shows_iff.mp hs

/-- When a page arrives for which the folder waits, it shows the pages up to this one. -/
theorem Tidy.arrives {s s' : State} {c : Call} (hlinked : Linked (fetchPage query) pages)
    (hs : Tidy pages s) (hknown : Known pages s) (hc : c ∈ s.calls)
    (hcurrent : ¬ c.Outdated s) (h : Arrives query s c s') :
  Tidy pages s'
  := by
  right
  rcases hknown.calls c hc with rfl | ⟨k, loadMoreNode, hk, rfl⟩
  · use 0
    rw [h.shows_iff hlinked (Nat.zero_le _) Pages.cursor_zero.symm]
    use rfl
    intro hpos
    exact absurd hpos (Nat.lt_irrefl 0)
  · use k
    rw [h.shows_iff hlinked hk.2 rfl]
    use rfl
    intro _
    rcases hs with hs | ⟨j, hs⟩
    · cases hs.calls _ hc
    · -- the folder shows the pages up to the one before
      have hcursor : pages.cursor (j + 1) = pages.cursor k := by
        rw [← (shows_iff.mp hs).2.2]
        apply not_not.mp hcurrent
      have hj := (Pages.cursor_eq_some.mp (hcursor.trans (Pages.cursor_eq_some.mpr ⟨hk, rfl⟩))).1
      rw [← hlinked.cursor_inj hj hk hcursor]
      apply hs.filter_shape

theorem Tidy.step {s s' : State} {a : Action} (hlinked : Linked (fetchPage query) pages)
    (hs : Tidy pages s) (hknown : Known pages s) (ha : ¬ Stale s a) (h : step query s a = some s') :
  Tidy pages s'
  := by
  rcases step_cases h with ⟨-, hkeeps⟩ | ⟨call, rfl, c, hc, harrives⟩
  · apply hs.keeps hkeeps
  · apply hs.arrives hlinked hknown (List.mem_of_getElem? hc) _ harrives
    intro houtdated
    exact ha ⟨c, hc, houtdated⟩

/-- A page for which the folder does not wait any more leaves it with a page too many or too few,
if only the first page may be empty. -/
theorem Tidy.not_stale {s s' : State} {a : Action} (hlinked : Linked (fetchPage query) pages)
    (hne : ∀ k, 0 < k → k ≤ pages.last → pages.page k ≠ []) (hs : Tidy pages s)
    (hknown : Known pages s) (h : Folder.step query s a = some s') (hs' : Loaded pages s') :
  ¬ Stale s a
  := by
  rcases step_cases h with ⟨hstale, -⟩ | ⟨call, rfl, c, hc, harrives⟩
  · apply hstale
  · rintro ⟨c', hc', houtdated⟩
    obtain rfl := Option.some.inj (hc.symm.trans hc')
    have hmem := List.mem_of_getElem? hc
    rcases hknown.calls c hmem with rfl | ⟨k, loadMoreNode, hk, rfl⟩
    · exact houtdated
    · apply houtdated
      obtain ⟨j, hj⟩ := hs.resolve_left fun hfresh => by cases hfresh.calls _ hmem
      have hshown : ∃ i, Shows pages i s' := by
        apply hs'.resolve_left
        intro hnil
        have hshape := harrives.shape_eq hlinked hk.2 rfl
        rw [State.shape, hnil] at hshape
        simp [hne k hk.1 hk.2] at hshape
      obtain ⟨i, hi⟩ := hshown
      obtain ⟨-, hnodes⟩ := (harrives.shows_iff hlinked hk.2 rfl).mp hi
      have hreturned : returned pages.page (j + 1) = returned pages.page k := by
        apply List.map_injective_iff.mpr (Option.some_injective _)
        rw [← hj.filter_shape, hnodes hk.1]
      have hjk : j + 1 = k := by
        apply returned_inj hne _ _ hreturned
        · use Nat.succ_pos j
          apply Nat.succ_le_succ hj.le_last
        · use hk.1
          apply Nat.le_succ_of_le hk.2
      rw [← hjk]
      apply (shows_iff.mp hj).2.2

/-- **Pages arrive in their order.** Let the pages of a folder be linked by keys that are not
empty. In every run of clicks, answers in any order and failures, in which a further page arrives
only while the folder waits for it, the children are always those of the first pages, with one
placeholder if there are more. If only the first page may be empty, they are so in no other run. -/
theorem loaded_iff {query : Option (List Char) → List StateNode × Option (List Char)}
    {pages : Pages (List Char) StateNode} (hlinked : Linked (fetchPage query) pages)
    {moduleName : List Char} {path : List (List Char)} {key : List Char} {opts : FolderOpts}
    {h : List (State × Action)} {s : State}
    (hrun : Run (step query) (.initial moduleName path key opts) h s) :
  ((∀ e ∈ h, ¬ Stale e.1 e.2) → ∀ x ∈ states h s, Loaded pages x) ∧
    ((∀ k, 0 < k → k ≤ pages.last → pages.page k ≠ []) →
      (∀ x ∈ states h s, Loaded pages x) → ∀ e ∈ h, ¬ Stale e.1 e.2)
  := by
  have hinitial : Known pages (.initial moduleName path key opts) ∧
      Tidy pages (.initial moduleName path key opts) :=
    ⟨known_initial moduleName path key opts, tidy_initial moduleName path key opts⟩
  constructor
  · intro hstale x hx
    apply Tidy.loaded
    have htidy := hrun.invariant (I := fun s => Known pages s ∧ Tidy pages s)
      (G := fun s a => ¬ Stale s a) hinitial
      (fun hs ha hstep => ⟨hs.1.step hlinked hstep, hs.2.step hlinked hs.1 ha hstep⟩) hstale
    apply (htidy x hx).2
  · intro hne hloaded
    have hnext : ∀ e ∈ h, ∀ s', step query e.1 e.2 = some s' → Loaded pages s' := by
      intro e he s' hs'
      obtain ⟨x, hx, hstep⟩ := hrun.next he
      obtain rfl := Option.some.inj (hs'.symm.trans hstep)
      apply hloaded s' hx
    have htidy := hrun.invariant (I := fun s => Known pages s ∧ Tidy pages s)
      (G := fun s a => ∀ s', step query s a = some s' → Loaded pages s') hinitial
      (fun hs ha hstep => by
        have hcurrent := hs.2.not_stale hlinked hne hs.1 hstep (ha _ hstep)
        exact ⟨hs.1.step hlinked hstep, hs.2.step hlinked hs.1 hcurrent hstep⟩) hnext
    intro e he
    obtain ⟨s', -, hstep⟩ := hrun.next he
    obtain ⟨hknown, htidy⟩ := htidy e.1 (mem_states_of_mem he s)
    apply htidy.not_stale hlinked hne hknown hstep (hnext e he s' hstep)

/-! ### A listing of three pages -/

/-- A listing that the chain serves by keys that are not empty is served by the fetchers. -/
theorem linked_fetchPage (hlinked : Linked query pages)
    (hkeys : ∀ k, 0 < k → k ≤ pages.last → pages.key k ≠ []) :
  Linked (fetchPage query) pages
  := by
  have htruthy : ∀ k, TreeNode.truthy (pages.cursor k) = pages.cursor k := by
    intro k
    cases hcursor : pages.cursor k with
    | none => rfl
    | some key =>
        obtain ⟨⟨hpos, hle⟩, rfl⟩ := Pages.cursor_eq_some.mp hcursor
        apply TreeNode.truthy_some (hkeys k hpos hle)
  intro k hk
  rw [fetchPage, htruthy, hlinked k hk]
  dsimp only
  rw [htruthy]

/-- Three pages with one coin each. -/
def supply : Pages (List Char) StateNode where
  last := 2
  page k := [makeLeaf "bank".toList ["bank".toList, "supply".toList] (List.replicate k 'u') ['1']
    ⟨none, none⟩]
  key k := List.replicate k 'k'

/-- The folder of these coins. -/
def supplyFolder : State :=
  .initial "bank".toList ["bank".toList] "supply".toList ⟨false, none, none, none⟩

theorem linked_supply :
  Linked (fetchPage supply.serve) supply
  := by
  apply linked_fetchPage
  · apply Pages.linked_serve
    intro j k _ hlt _ heq
    have := congrArg List.length heq
    simp only [supply, List.length_replicate] at this
    omega
  · intro k hk _ hnil
    have := congrArg List.length hnil
    simp only [supply, List.length_replicate, List.length_nil] at this
    omega

/-- Two clicks on the placeholder before the second page has arrived: it arrives twice, and its
coin is shown twice. -/
theorem loaded_clicked_twice :
  ∃ h s, exec (step supply.serve) supplyFolder
      [.clickRow, .arrive 0, .clickLoadMore, .clickLoadMore, .arrive 0, .arrive 0] = some (h, s) ∧
    Linked (fetchPage supply.serve) supply ∧ Run (step supply.serve) supplyFolder h s ∧
    s.children.filterMap Child.node? = supply.page 0 ++ supply.page 1 ++ supply.page 1 ∧
    ¬ Loaded supply s
  := by
  have hrun : Run (step supply.serve) supplyFolder _ _ := run_of_exec
    (l := [.clickRow, .arrive 0, .clickLoadMore, .clickLoadMore, .arrive 0, .arrive 0]) rfl
  refine ⟨_, _, rfl, linked_supply, hrun, rfl, ?_⟩
  rintro (hnil | ⟨k, hle, ⟨placeholders, hchildren, -, hlength⟩, -⟩)
  · cases hnil
  · have hfour := congrArg List.length hchildren
    rw [List.length_append, hlength, List.length_map] at hfour
    have hnot : ∀ k ≤ 2, (returned supply.page (k + 1)).length + (if k < 2 then 1 else 0) ≠ 4 := by
      decide
    exact hnot k hle hfour.symm

/-- Here the folder is collapsed and expanded before its first page has arrived, so that page is
asked for twice, and it arrives a second time after the placeholder has been clicked. -/
theorem loaded_iff_sample :
  ∃ h s, exec (step supply.serve) supplyFolder
      [.clickRow, .clickRow, .clickRow, .arrive 1, .clickLoadMore, .arrive 0, .arrive 0,
        .clickLoadMore, .fail 0 "timeout".toList] = some (h, s) ∧
    (∀ x ∈ states h s, Loaded supply x) ∧ ∀ e ∈ h, ¬ Stale e.1 e.2
  := by
  have hrun : Run (step supply.serve) supplyFolder _ _ := run_of_exec
    (l := [.clickRow, .clickRow, .clickRow, .arrive 1, .clickLoadMore, .arrive 0, .arrive 0,
      .clickLoadMore, .fail 0 "timeout".toList]) rfl
  have hloaded := (loaded_iff linked_supply hrun).1 (by decide)
  refine ⟨_, _, rfl, hloaded, (loaded_iff linked_supply hrun).2 ?_ hloaded⟩
  intro k _ _
  apply List.cons_ne_nil

end Explorer.Folder
