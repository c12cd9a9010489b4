import InterchainEvents.Explorer.Searched

/-!
# The invariant of the page

In a good state of the page all nodes are sound, each component stands where a node of its kind may
stand, and each modal is opened on what was told, or on a folder (`Good`). The changes that the
calls of the page make lead from good states to good states, in which all nodes are what they were
(`Goes`).
-/

namespace Explorer

namespace Page

variable {told : (req : Request) → req.Answer → Prop}

/-! ### Places -/

/-- Where the components stand. -/
def spots (s : Page) : List Spot :=
  s.components.map (·.spot)

/-- What may stand in a place: below a module stand its folders, below a folder leaves and
placeholders, and in a search result groups. -/
def Stands (spots : List Spot) : Spot → Role → Prop
  | .top, r => r = .top
  | .child parent, r =>
      ∃ spot, spots[parent]? = some spot ∧
        if spot = .top then r = .folder else r = .leaf ∨ r = .placeholder
  | .result _, r => r = .group

/-- Nothing but folders stands in the place. -/
def FolderSpot (spots : List Spot) : Spot → Prop
  | .top => True
  | .child parent => spots[parent]? = some .top
  | .result _ => True

variable {spots spots' : List Spot} {spot : Spot}

theorem Stands.mono (h : spots <+: spots') {r : Role} (hr : Stands spots spot r) :
  Stands spots' spot r
  := by
  cases spot with
  | top => apply hr
  | child parent =>
      obtain ⟨parentSpot, hparent, hrole⟩ := hr
      exact ⟨parentSpot, getElem?_of_prefix h hparent, hrole⟩
  | result parent => apply hr

theorem FolderSpot.mono (h : spots <+: spots') (hspot : FolderSpot spots spot) :
  FolderSpot spots' spot
  := by
  cases spot with
  | top => trivial
  | child parent => apply getElem?_of_prefix h hspot
  | result parent => trivial

/-- What can be opened stands where folders stand. -/
theorem folderSpot_of_opens {r : Role} (hr : Stands spots spot r) (hleaf : r ≠ .leaf)
    (hplaceholder : r ≠ .placeholder) :
  FolderSpot spots spot
  := by
  cases spot with
  | top => trivial
  | child parent =>
      obtain ⟨parentSpot, hparent, hrole⟩ := hr
      split_ifs at hrole with htop
      · rw [FolderSpot, hparent, htop]
      · exact (hrole.elim hleaf hplaceholder).elim
  | result parent => trivial

/-- No leaf stands where folders stand. -/
theorem ne_leaf_of_folderSpot {r : Role} (hr : Stands spots spot r)
    (hspot : FolderSpot spots spot) :
  r ≠ .leaf
  := by
  rintro rfl
  cases spot with
  | top => cases hr
  | child parent =>
      obtain ⟨parentSpot, hparent, hrole⟩ := hr
      obtain rfl := Option.some.inj (hparent.symm.trans hspot)
      simp at hrole
  | result parent => cases hr

/-! ### The invariant -/

variable (told) in
/-- What a modal is opened with: a node that says what was told, with its value if any; or nothing,
to be taken from the node of the component, and a key that was searched for only where folders
stand. -/
structure OpeningFits (spots : List Spot) (spot : Spot) (opening : Opening) : Prop where
  own : ∀ data, opening.node = some data → Says told data ∧ opening.preSearchKey = none ∧
    (opening.preValue = none ∨ opening.preValue = data.value)
  component : opening.node = none →
    opening.preSearchKey = none ∧ opening.preValue = none ∨ FolderSpot spots spot

variable (told) in
/-- A component has a node that may stand where it does, has found groups and leaves, and is opened
as it should. -/
structure Fits (nodes : List Node) (spots : List Spot) (component : Component) : Prop where
  node : Has nodes component.node (Stands spots component.spot)
  results : ∀ n ∈ resultChildren component, Has nodes n fun r => r = .group ∨ r = .leaf
  opening : OpeningFits told spots component.spot component.opening

variable (told) in
/-- A good state of the page. -/
structure Good (s : Page) : Prop where
  nodes : Sound told s.nodes
  tree : ∀ n ∈ s.tree, Has s.nodes n (· = .top)
  chain : ∀ chain, s.selectedChain = some chain → chain ∈ chains
  components : ∀ component ∈ s.components, Fits told s.nodes s.spots component

theorem Fits.mono {nodes nodes' : List Node} {component : Component}
    (h : Fits told nodes spots component) (hnodes : Keeps nodes nodes')
    (hspots : spots <+: spots') :
  Fits told nodes' spots' component
  := by
  refine ⟨?_, fun n hn => hnodes.has (h.results n hn), h.opening.own, ?_⟩
  · apply (hnodes.has h.node).mono
    exact fun r hr => hr.mono hspots
  · intro hnone
    exact (h.opening.component hnone).imp_right fun hspot => hspot.mono hspots

theorem good_initial :
  Good told initial
  := by
  refine ⟨?_, by simp [initial], ?_, by simp [initial]⟩
  · intro n node hnode
    simp [initial] at hnode
  · intro chain hchain
    apply List.mem_of_mem_head? hchain

/-! ### Changes -/

variable (told) in
/-- A change leads to a good state, in which all nodes are what they were. -/
def Goes (s s' : Page) : Prop :=
  Good told s' ∧ Keeps s.nodes s'.nodes

theorem Goes.trans {s s' s'' : Page} (h : Goes told s s') (h' : Goes told s' s'') :
  Goes told s s''
  := ⟨h'.1, h.2.trans h'.2⟩

variable {s : Page}

theorem Good.goes (h : Good told s) :
  Goes told s s
  := ⟨h, Keeps.refl _⟩

/-- The nodes change, and the error. -/
theorem Good.setNodes (h : Good told s) {nodes : List Node} (hsound : Sound told nodes)
    (hkeeps : Keeps s.nodes nodes) (error : Option (List Char)) :
  Goes told s { s with nodes := nodes, error := error }
  := ⟨⟨hsound, fun n hn => hkeeps.has (h.tree n hn), h.chain,
    fun component hc => (h.components component hc).mono hkeeps List.prefix_rfl⟩, hkeeps⟩

theorem Good.setError (h : Good told s) (error : Option (List Char)) :
  Goes told s (s.setError error)
  := h.setNodes h.nodes (Keeps.refl _) error

/-- What is displayed of a node changes. -/
theorem Good.display (h : Good told s) {f : Node → Node} (n : ℕ)
    (hfixed : ∀ node, (f node).fixed = node.fixed)
    (hsame : ∀ node, ((f node).hasChildren = node.hasChildren ∧
        (f node).nextPageKey = node.nextPageKey) ∧ (f node).pendingStoreKey = node.pendingStoreKey ∧
      (f node).children = node.children) :
  Goes told s (s.setNode n f)
  := by
  apply h.setNodes _ (keeps_modify hfixed n s.nodes)
  apply h.nodes.modify hfixed
  intro node hnode
  obtain ⟨hopen, hpending, hchildren⟩ := hsame node
  obtain ⟨hknown, hbelow⟩ := h.nodes n node hnode
  rw [hchildren]
  exact ⟨hknown.change (hfixed node) (.inl hopen) (.inl hpending), hbelow⟩

theorem Good.setLoading (h : Good told s) (n : ℕ) (loading : Bool) :
  Goes told s (s.setLoading n loading)
  := h.display n (fun _ => rfl) fun _ => ⟨⟨rfl, rfl⟩, rfl, rfl⟩

/-- A placeholder is loading or not. -/
theorem Good.setMoreLoading (h : Good told s) (loadMoreNode : Option ℕ) (loading : Bool) :
  Goes told s (s.setMoreLoading loadMoreNode loading)
  := by
  cases loadMoreNode with
  | none => apply h.goes
  | some more => apply h.setLoading

theorem Good.setExpanded (h : Good told s) (n : ℕ) (expanded : Bool) :
  Goes told s (s.setExpanded n expanded)
  := h.display n (fun _ => rfl) fun _ => ⟨⟨rfl, rfl⟩, rfl, rfl⟩

/-- A node that can be opened changes, with children that may stand below it. -/
theorem Good.setFolder (h : Good told s) {n : ℕ} {r : Role} (hn : Has s.nodes n (· = r))
    (hopens : r ≠ .leaf ∧ r ≠ .placeholder) {f : Node → Node}
    (hfixed : ∀ node, (f node).fixed = node.fixed)
    (hpending : ∀ node, (f node).pendingStoreKey = node.pendingStoreKey)
    (hchildren : ∀ node, ∀ c ∈ (f node).children, c ∈ node.children ∨ Has s.nodes c (Under r)) :
  Goes told s (s.setNode n f)
  := by
  apply h.setNodes _ (keeps_modify hfixed n s.nodes)
  apply h.nodes.modify hfixed
  intro node hnode
  obtain ⟨node', hnode', rfl⟩ := hn
  obtain rfl := Option.some.inj (hnode.symm.trans hnode')
  obtain ⟨hknown, hbelow⟩ := h.nodes n node hnode
  use hknown.change (hfixed node) (.inr hopens) (.inl (hpending node))
  intro c hc
  exact (hchildren node c hc).elim (hbelow c) id

/-- A component changes, but not its place. -/
theorem Good.setComponent (h : Good told s) {c : ℕ} {f : Component → Component}
    (hspot : ∀ component, (f component).spot = component.spot)
    (hf : ∀ component, s.components[c]? = some component →
      Fits told s.nodes s.spots (f component)) :
  Goes told s (s.setComponent c f)
  := by
  have hspots : (s.setComponent c f).spots = s.spots := by
    apply List.ext_getElem?
    intro k
    simp only [spots, Page.setComponent, List.getElem?_map, List.getElem?_modify]
    cases s.components[k]? with
    | none => rfl
    | some component =>
        by_cases hk : c = k
        · simp [hk, hspot]
        · simp [hk]
  refine ⟨⟨h.nodes, h.tree, h.chain, ?_⟩, Keeps.refl _⟩
  intro component hcomponent
  rw [hspots]
  obtain ⟨k, hk⟩ := List.mem_iff_getElem?.mp hcomponent
  simp only [Page.setComponent, List.getElem?_modify] at hk
  obtain ⟨old, hold, rfl⟩ := Option.map_eq_some_iff.mp hk
  by_cases hsame : c = k
  · subst hsame
    rw [if_pos rfl]
    apply hf old hold
  · rw [if_neg hsame]
    apply h.components old (List.mem_of_getElem? hold)

/-- A search field changes, or what is displayed of a search. -/
theorem Good.searchField (h : Good told s) (c : ℕ) {f : Component → Component}
    (hf : ∀ component, (f component).spot = component.spot ∧
      (f component).node = component.node ∧ (f component).opening = component.opening ∧
      ∀ n ∈ resultChildren (f component), n ∈ resultChildren component) :
  Goes told s (s.setComponent c f)
  := by
  apply h.setComponent fun component => (hf component).1
  intro component hcomponent
  obtain ⟨hspot, hnode, hopening, hresults⟩ := hf component
  obtain ⟨hn, hr, ho⟩ := h.components component (List.mem_of_getElem? hcomponent)
  refine ⟨?_, fun n hn => hr n (hresults n hn), ?_⟩
  · rw [hspot, hnode]
    apply hn
  · rw [hspot, hopening]
    apply ho

/-- A modal is opened. -/
theorem Good.openModal (h : Good told s) {c : ℕ} {opening : Opening}
    (hopening : ∀ component, s.components[c]? = some component →
      OpeningFits told s.spots component.spot opening) :
  Goes told s (s.openModal c opening)
  := by
  refine h.setComponent (fun _ => rfl) ?_
  intro component hcomponent
  obtain ⟨hn, hr, -⟩ := h.components component (List.mem_of_getElem? hcomponent)
  exact ⟨hn, hr, hopening component hcomponent⟩

end Page

end Explorer
