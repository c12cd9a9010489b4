import InterchainEvents.Explorer.Reported

/-!
# The nodes of the page

The nodes of the page are only ever added to, and what a node is never changes (`Keeps`). They are
sound when each of them is known, and what stands below it may stand there (`Sound`). Adding known
nodes and changing what is displayed keeps them sound.
-/

namespace Explorer

variable {told : (req : Request) → req.Answer → Prop} {nodes nodes' nodes'' : List Node}

/-! ### Growing -/

/-- All nodes are still there, and are what they were. -/
def Keeps (nodes nodes' : List Node) : Prop :=
  nodes.map Node.fixed <+: nodes'.map Node.fixed

theorem Keeps.refl (nodes : List Node) :
  Keeps nodes nodes
  := List.prefix_rfl

theorem Keeps.trans (h : Keeps nodes nodes') (h' : Keeps nodes' nodes'') :
  Keeps nodes nodes''
  := List.IsPrefix.trans h h'

theorem keeps_append (nodes added : List Node) :
  Keeps nodes (nodes ++ added)
  := by
  rw [Keeps, List.map_append]
  apply List.prefix_append

theorem getElem?_of_prefix {α : Type} {xs ys : List α} (h : xs <+: ys) {n : ℕ} {x : α}
    (hx : xs[n]? = some x) :
  ys[n]? = some x
  := by
  obtain ⟨hlt, rfl⟩ := List.getElem?_eq_some_iff.mp hx
  rw [h.getElem hlt]
  apply List.getElem?_eq_getElem

/-- A node that was there is still there. -/
theorem Keeps.find (h : Keeps nodes nodes') {n : ℕ} {node : Node} (hnode : nodes[n]? = some node) :
  ∃ node', nodes'[n]? = some node' ∧ node'.fixed = node.fixed
  := by
  have hfixed : (nodes'.map Node.fixed)[n]? = some node.fixed := by
    apply getElem?_of_prefix h
    rw [List.getElem?_map, hnode]
    rfl
  rw [List.getElem?_map] at hfixed
  obtain ⟨node', hnode', heq⟩ := Option.map_eq_some_iff.mp hfixed
  use node'

/-- Changing what may change of a node keeps all. -/
theorem keeps_modify {f : Node → Node} (hf : ∀ node, (f node).fixed = node.fixed) (n : ℕ)
    (nodes : List Node) :
  Keeps nodes (nodes.modify n f)
  := by
  have heq : (nodes.modify n f).map Node.fixed = nodes.map Node.fixed := by
    apply List.ext_getElem?
    intro k
    rw [List.getElem?_map, List.getElem?_map, List.getElem?_modify]
    cases nodes[k]? with
    | none => rfl
    | some node =>
        by_cases hk : n = k
        · simp [hk, hf]
        · simp [hk]
  rewrite [Keeps, heq]
  apply List.prefix_rfl

/-! ### Soundness -/

/-- There is a node of a role. -/
def Has (nodes : List Node) (n : ℕ) (P : Role → Prop) : Prop :=
  ∃ node, nodes[n]? = some node ∧ P node.role

theorem Has.mono {n : ℕ} {P Q : Role → Prop} (h : Has nodes n P) (hPQ : ∀ r, P r → Q r) :
  Has nodes n Q
  := by
  obtain ⟨node, hnode, hP⟩ := h
  exact ⟨node, hnode, hPQ _ hP⟩

theorem Keeps.has (h : Keeps nodes nodes') {n : ℕ} {P : Role → Prop} (hP : Has nodes n P) :
  Has nodes' n P
  := by
  obtain ⟨node, hnode, hP⟩ := hP
  obtain ⟨node', hnode', hfixed⟩ := h.find hnode
  use node', hnode'
  rwa [role_of_fixed hfixed]

variable (told) in
/-- Each node is known, and its children may stand below it. -/
def Sound (nodes : List Node) : Prop :=
  ∀ (n : ℕ) node, nodes[n]? = some node →
    Known told node ∧ ∀ c ∈ node.children, Has nodes c (Under node.role)

/-- A known node is added, whose children are there. -/
theorem Sound.append (h : Sound told nodes) {node : Node} (hnode : Known told node)
    (hchildren : ∀ c ∈ node.children, Has nodes c (Under node.role)) :
  Sound told (nodes ++ [node])
  := by
  have hkeeps := keeps_append nodes [node]
  intro n node' hn
  by_cases hlt : n < nodes.length
  · rw [List.getElem?_append_left hlt] at hn
    obtain ⟨hknown, hbelow⟩ := h n node' hn
    exact ⟨hknown, fun c hc => hkeeps.has (hbelow c hc)⟩
  · rw [List.getElem?_append_right (by omega)] at hn
    obtain rfl := List.mem_singleton.mp (List.mem_of_getElem? hn)
    exact ⟨hnode, fun c hc => hkeeps.has (hchildren c hc)⟩

/-- A node is changed to one that is known, whose children are there. -/
theorem Sound.modify (h : Sound told nodes) {n : ℕ} {f : Node → Node}
    (hfixed : ∀ node, (f node).fixed = node.fixed)
    (hf : ∀ node, nodes[n]? = some node →
      Known told (f node) ∧ ∀ c ∈ (f node).children, Has nodes c (Under node.role)) :
  Sound told (nodes.modify n f)
  := by
  have hkeeps := keeps_modify hfixed n nodes
  intro k node hk
  rw [List.getElem?_modify] at hk
  obtain ⟨old, hold, rfl⟩ := Option.map_eq_some_iff.mp hk
  by_cases hsame : n = k
  · subst hsame
    obtain ⟨hknown, hbelow⟩ := hf old hold
    simp only [if_true, role_of_fixed (hfixed old)]
    exact ⟨hknown, fun c hc => hkeeps.has (hbelow c hc)⟩
  · obtain ⟨hknown, hbelow⟩ := h k old hold
    simp only [hsame, if_false]
    exact ⟨hknown, fun c hc => hkeeps.has (hbelow c hc)⟩

/-! ### New nodes -/

variable (told) in
/-- A node with all that stands below it, as it is made: each is known, and may stand where it
does. -/
inductive Grown : StateNode → Prop
  | node {data : NodeData} {children : List StateNode} :
      Known told (StateNode.object ⟨data, children⟩) → (∀ x ∈ children, Grown x) →
      (∀ x ∈ children, Under (StateNode.object ⟨data, children⟩).role x.object.role) →
      Grown ⟨data, children⟩

/-- A node without children. -/
theorem grown_of_known {x : StateNode} (hchildren : x.children = []) (h : Known told x.object) :
  Grown told x
  := by
  obtain ⟨data, children⟩ := x
  obtain rfl := hchildren
  apply Grown.node h
  · simp
  · simp

variable (told) in
/-- Some objects have become sound nodes, and are known by these handles. -/
structure Made (nodes nodes' : List Node) (handles : List ℕ) (xs : List StateNode) : Prop where
  sound : Sound told nodes'
  keeps : Keeps nodes nodes'
  handles : ∀ n ∈ handles, ∃ x ∈ xs, ∃ node, nodes'[n]? = some node ∧ node.role = x.object.role

namespace Page

theorem create_node (nodes : List Node) (data : NodeData) (children : List StateNode) :
  create nodes ⟨data, children⟩
    = ((createAll nodes children).1
        ++ [{ toNodeData := data, children := (createAll nodes children).2 }],
      (createAll nodes children).1.length)
  := by
  rw [create]

mutual

/-- Making an object of a node. -/
theorem made_create : ∀ (x : StateNode) {nodes : List Node}, Sound told nodes → Grown told x →
    Made told nodes (create nodes x).1 [(create nodes x).2] [x]
  | ⟨data, children⟩, nodes, hsound, .node hknown hgrown hunder => by
      obtain ⟨hsound', hkeeps, hhandles⟩ := made_createAll children hsound hgrown
      rw [create_node]
      refine ⟨?_, hkeeps.trans (keeps_append _ _), ?_⟩
      · have hnode : Known told { toNodeData := data, children := (createAll nodes children).2 } :=
          hknown
        apply hsound'.append hnode
        intro c hc
        obtain ⟨x, hx, node, hnode, hrole⟩ := hhandles c hc
        use node, hnode
        rw [hrole]
        apply hunder x hx
      · intro n hn
        obtain rfl := List.mem_singleton.mp hn
        exact ⟨_, List.mem_singleton_self _, _, List.getElem?_concat_length, rfl⟩

/-- Making objects of nodes. -/
theorem made_createAll : ∀ (xs : List StateNode) {nodes : List Node}, Sound told nodes →
    (∀ x ∈ xs, Grown told x) →
    Made told nodes (createAll nodes xs).1 (createAll nodes xs).2 xs
  | [], nodes, hsound, _ => ⟨hsound, Keeps.refl nodes, by simp [createAll]⟩
  | x :: xs, nodes, hsound, hgrown => by
      obtain ⟨hsound₁, hkeeps₁, hhandles₁⟩ :=
        made_create x hsound (hgrown x List.mem_cons_self)
      obtain ⟨hsound₂, hkeeps₂, hhandles₂⟩ :=
        made_createAll xs hsound₁ fun x' hx' => hgrown x' (List.mem_cons_of_mem x hx')
      rw [createAll]
      refine ⟨hsound₂, hkeeps₁.trans hkeeps₂, ?_⟩
      intro n hn
      rcases List.mem_cons.mp hn with rfl | hn
      · obtain ⟨x', hx', node, hnode, hrole⟩ := hhandles₁ _ (List.mem_singleton_self _)
        obtain rfl := List.mem_singleton.mp hx'
        obtain ⟨node', hnode', hfixed⟩ := hkeeps₂.find hnode
        exact ⟨x', List.mem_cons_self, node', hnode', (role_of_fixed hfixed).trans hrole⟩
      · obtain ⟨x', hx', hnode⟩ := hhandles₂ n hn
        exact ⟨x', List.mem_cons_of_mem x hx', hnode⟩

end

end Page

/-! ### What the makers make -/

/-- A folder of a module. -/
theorem grown_makeFolder {path : List (List Char)} {moduleName key : List Char}
    {opts : FolderOpts} (hpath : path = [moduleName]) (hopts : opts.storeKey = none) :
  Grown told (makeFolder moduleName path key opts) ∧
    (makeFolder moduleName path key opts).object.role = .folder
  := by
  subst hpath
  have hrole : (makeFolder moduleName [moduleName] key opts).object.role = .folder := rfl
  refine ⟨grown_of_known rfl ?_, hrole⟩
  rw [Known, hrole]
  exact ⟨⟨key, rfl⟩, hopts, rfl, rfl⟩

/-- A module. -/
theorem grown_module (moduleName : List Char) :
  Grown told (makeFolder moduleName [] moduleName plain) ∧
    (makeFolder moduleName [] moduleName plain).object.role = .top
  := by
  have hrole : (makeFolder moduleName [] moduleName plain).object.role = .top := rfl
  refine ⟨grown_of_known rfl ?_, hrole⟩
  rw [Known, hrole]
  exact ⟨rfl, rfl, rfl, rfl⟩

/-- A leaf that says what was told. -/
theorem grown_makeLeaf {path : List (List Char)} {moduleName key value : List Char}
    {opts : LeafOpts} (hsaid : Says told (makeLeaf moduleName path key value opts).toNodeData) :
  Grown told (makeLeaf moduleName path key value opts) ∧
    (makeLeaf moduleName path key value opts).object.role = .leaf
  := by
  have hrole : (makeLeaf moduleName path key value opts).object.role = .leaf := rfl
  refine ⟨grown_of_known rfl ?_, hrole⟩
  rw [Known, hrole]
  exact ⟨⟨rfl, rfl, rfl⟩, hsaid⟩

/-- A placeholder is known. -/
theorem known_makeLoadMore (moduleName : List Char) (path : List (List Char)) :
  Known told (makeLoadMore moduleName path)
  := by
  have hrole : (makeLoadMore moduleName path).role = .placeholder := rfl
  rw [Known, hrole]
  exact ⟨⟨rfl, rfl, rfl⟩, rfl⟩

end Explorer
