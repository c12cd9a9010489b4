import InterchainEvents.Explorer.Good

/-!
# The calls of the page keep it good

Each call of the page, whatever it is answered and whatever others do while it waits, leads from
good states to good states only (`Acts`).
-/

namespace Explorer

open Shared Async

namespace Page

variable {told : (req : Request) → req.Answer → Prop} {s : Page}

theorem Goes.ite {s₁ s₂ : Page} {b : Bool} (h₁ : b → Goes told s s₁) (h₂ : !b → Goes told s s₂) :
  Goes told s (if b then s₁ else s₂)
  := by
  cases b with
  | false => apply h₂ rfl
  | true => apply h₁ rfl

/-! ### A page of children comes -/

section Folder

variable {n : ℕ} {r : Role} (h : Good told s) (hn : Has s.nodes n (· = r))
  (hopens : r ≠ .leaf ∧ r ≠ .placeholder)

include h hn hopens

theorem Good.setNextPageKey (nextKey : Option (List Char)) :
  Goes told s (s.setNextPageKey n nextKey)
  := h.setFolder hn hopens (fun _ => rfl) (fun _ => rfl) fun _ _ hc => .inl hc

theorem Good.removeLoadMore :
  Goes told s (s.removeLoadMore n)
  := h.setFolder hn hopens (fun _ => rfl) (fun _ => rfl)
    fun _ _ hc => .inl (List.mem_of_mem_filter hc)

theorem Good.closeEmpty :
  Goes told s (s.closeEmpty n)
  := h.setFolder hn hopens (fun _ => rfl) (fun _ => rfl) fun _ _ hc => .inl hc

theorem Good.setChildren {children : List ℕ}
    (hchildren : ∀ c ∈ children, Has s.nodes c (Under r)) :
  Goes told s (s.setChildren n children)
  := h.setFolder hn hopens (fun _ => rfl) (fun _ => rfl) fun _ c hc => .inr (hchildren c hc)

theorem Good.pushChildren {children : List ℕ}
    (hchildren : ∀ c ∈ children, Has s.nodes c (Under r)) :
  Goes told s (s.pushChildren n children)
  := h.setFolder hn hopens (fun _ => rfl) (fun _ => rfl)
    fun _ c hc => (List.mem_append.mp hc).imp_right (hchildren c)

/-- A placeholder may stand below any node that can be opened, but a module. -/
theorem Good.pushLoadMore (hr : r ≠ .top) :
  Goes told s (s.pushLoadMore n)
  := by
  rw [Page.pushLoadMore]
  split
  case h_1 node hnode =>
      have hsound : Sound told (s.nodes ++ [makeLoadMore node.moduleName node.path]) :=
        h.nodes.append (known_makeLoadMore _ _) fun c hc => absurd hc List.not_mem_nil
      have hadded := h.setNodes hsound (keeps_append _ _) s.error
      apply hadded.trans
      apply hadded.1.pushChildren (hadded.2.has hn) hopens
      intro c hc
      obtain rfl := List.mem_singleton.mp hc
      refine ⟨_, List.getElem?_concat_length, ?_⟩
      cases r with
      | top => contradiction
      | folder => exact .inr rfl
      | group => exact .inr rfl
      | leaf => exact absurd rfl hopens.1
      | placeholder => exact absurd rfl hopens.2
  case h_2 => apply h.goes

/-- A page of children comes for a node that can be opened. -/
theorem Good.receive {nodes : List StateNode} {nextKey : Option (List Char)}
    (hnodes : ∀ x ∈ nodes, Grown told x ∧ Under r x.object.role)
    (hnext : r = .top → nextKey = none) (pageKey : Option (List Char)) :
  Goes told s (s.receive n pageKey nodes nextKey)
  := by
  have hmade := made_createAll nodes h.nodes fun x hx => (hnodes x hx).1
  have hhandles : ∀ c ∈ (createAll s.nodes nodes).2,
      Has (createAll s.nodes nodes).1 c (Under r) := by
    intro c hc
    obtain ⟨x, hx, node, hnode, hrole⟩ := hmade.handles c hc
    exact ⟨node, hnode, hrole ▸ (hnodes x hx).2⟩
  have hcreated := h.setNodes hmade.sound hmade.keeps s.error
  have hkey := hcreated.1.setNextPageKey (hcreated.2.has hn) hopens nextKey
  have hremoved := hkey.1.removeLoadMore ((hcreated.trans hkey).2.has hn) hopens
  have hbefore := (hcreated.trans hkey).trans hremoved
  have hthere : ∀ c ∈ (createAll s.nodes nodes).2, Has _ c (Under r) :=
    fun c hc => (hkey.trans hremoved).2.has (hhandles c hc)
  have hput := hbefore.trans (Goes.ite (b := (TreeNode.truthy pageKey).isSome)
    (fun _ => hremoved.1.pushChildren (hbefore.2.has hn) hopens hthere)
    fun _ => hremoved.1.setChildren (hbefore.2.has hn) hopens hthere)
  have hmore := hput.trans (Goes.ite (b := (TreeNode.truthy nextKey).isSome)
    (fun hkey => hput.1.pushLoadMore (hput.2.has hn) hopens (by
      rintro rfl
      rw [hnext rfl] at hkey
      contradiction))
    fun _ => hput.1.goes)
  exact hmore.trans (hmore.1.closeEmpty (hmore.2.has hn) hopens)

end Folder

/-! ### Programs -/

variable (told) in
/-- Begun in a good state, the program keeps the page good, and ends with `Q`. -/
abbrev Acts {α : Type} (Q : α → Page → Prop) (p : Task α) (s : Page) : Prop :=
  Respects apply (Good told) (fun s s' => Keeps s.nodes s'.nodes) (Answers told) Q
    (fun _ _ => True) p s

/-- The state in which a program ends is good, with all nodes as they were. -/
theorem Acts.goes {α : Type} {Q : α → Page → Prop} {p : Task α} (hp : Acts told Q p s)
    (h : Good told s) :
  Respects apply (Good told) (fun s s' => Keeps s.nodes s'.nodes) (Answers told)
    (fun a s' => Q a s' ∧ Goes told s s') (fun _ s' => Goes told s s') p s
  := by
  apply (hp.keeps (fun s => Keeps.refl s.nodes) (fun _ _ _ hk hk' => hk.trans hk') h).mono
  · exact fun a s' ha => ha
  · exact fun e s' he => he.2

/-- A program that keeps the page good is followed by another. -/
theorem Acts.bind {α β : Type} {P : α → Page → Prop} {Q : β → Page → Prop} {p : Task α}
    {f : α → Task β} (h : Good told s) (hp : Acts told P p s)
    (hf : ∀ a s', P a s' → Goes told s s' → Acts told Q (f a) s') :
  Acts told Q (p >>= f) s
  := by
  apply respects_bind.mpr
  apply (hp.goes h).mono
  · exact fun a s' ha => hf a s' ha.1 ha.2
  · exact fun _ _ _ => trivial

/-- What a program throws is caught. -/
theorem Acts.tryCatch {α : Type} {Q : α → Page → Prop} {p : Task α} {f : List Char → Task α}
    (h : Good told s) (hp : Acts told Q p s)
    (hf : ∀ e s', Goes told s s' → Acts told Q (f e) s') :
  Acts told Q (tryCatch p f) s
  := by
  apply respects_handle.mpr
  apply (hp.goes h).mono
  · exact fun a s' ha => ha.1
  · exact fun e s' he => hf e s' he

theorem acts_perform {command : Page → Page} {Q : Unit → Page → Prop}
    (h : Goes told s (command s)) (hQ : Q () (command s)) :
  Acts told Q (perform command) s
  := ⟨h, hQ⟩

theorem Acts.perform {β : Type} {command : Page → Page} {Q : β → Page → Prop}
    {f : Unit → Task β} (h : Goes told s (command s)) (hf : Acts told Q (f ()) (command s)) :
  Acts told Q (perform command >>= f) s
  := ⟨h, hf⟩

theorem acts_of_gives {α : Type} {Q : α → Prop} {p : Task α} (hp : Gives told Q p) :
  Acts told (fun a _ => Q a) p s
  := hp _ _ _ s

variable (told) in
/-- Begun in a good state, the program keeps the page good. -/
abbrev Keeping (p : Task Unit) (s : Page) : Prop :=
  Acts told (fun _ _ => True) p s

/-! ### What can be opened -/

/-- There is a node that can be opened. -/
def OpensAt (nodes : List Node) (n : ℕ) : Prop :=
  Has nodes n fun r => r ≠ .leaf ∧ r ≠ .placeholder

/-- What cannot be opened has no children, no next page and cannot be searched. -/
theorem opensAt_of_not_shut (h : Good told s) {n : ℕ} {node : Node}
    (hnode : s.nodes[n]? = some node) (hshut : ¬ Shut node.toNodeData) :
  OpensAt s.nodes n
  := by
  refine ⟨node, hnode, ?_, ?_⟩
  · exact fun hr => hshut ((h.nodes n node hnode).1.shut (.inl hr))
  · exact fun hr => hshut ((h.nodes n node hnode).1.shut (.inr hr))

theorem opens_of_opensAt {nodes : List Node} {n : ℕ} (h : OpensAt nodes n) {node : Node}
    (hnode : nodes[n]? = some node) :
  Opens node
  := by
  obtain ⟨node', hnode', hopens⟩ := h
  obtain rfl := Option.some.inj (hnode.symm.trans hnode')
  apply hopens

/-! ### The explorer's functions -/

section Calls

variable {chain : Chain} (hchain : chain ∈ chains)

include hchain

/-- The children of a node that can be opened are fetched. -/
theorem keeping_fetchChildren (h : Good told s) {n : ℕ} (hn : OpensAt s.nodes n)
    (pageKey : Option (List Char)) :
  Keeping told (fetchChildren n chain.rest pageKey) s
  := by
  apply respects_bind.mpr
  apply respects_shared.mpr
  split
  case h_1 => trivial
  case h_2 node hnode =>
      have hopens := opens_of_opensAt hn hnode
      split
      case h_1 => trivial
      case h_2 fetcher hfetcher =>
          have hgives : Gives told (PageFits told node) (fetcher chain.rest _ pageKey) :=
            gives_fetchers (h.nodes n node hnode).1 hopens hchain hfetcher
          apply Acts.bind h (acts_of_gives hgives)
          rintro ⟨nodes, nextKey⟩ s' hpage hgoes
          apply acts_perform _ trivial
          apply hgoes.1.receive (hgoes.2.has ⟨node, hnode, rfl⟩) hopens hpage.nodes hpage.nextKey

/-- The children of a node are fetched, and the error is shown if that fails. -/
theorem keeping_tryFetchChildren (h : Good told s) {n : ℕ} (hn : OpensAt s.nodes n)
    (pageKey : Option (List Char)) (node : Node) :
  Keeping told (tryCatch (fetchChildren n chain.rest pageKey) fun e => perform (failed node e)) s
  := by
  apply Acts.tryCatch h (keeping_fetchChildren hchain h hn pageKey)
  intro e s' hgoes
  apply acts_perform (hgoes.1.setError _) trivial

/-- A node is expanded or collapsed, whose children can be fetched if it has any. -/
theorem keeping_toggleNode (h : Good told s) (n : ℕ) :
  Keeping told (toggleNode n chain.rest) s
  := by
  apply respects_bind.mpr
  apply respects_shared.mpr
  split
  case h_1 => trivial
  case h_2 node hnode =>
      split
      case isTrue => apply acts_perform (h.setExpanded n false) trivial
      case isFalse =>
          have h₁ := h.setExpanded n true
          apply Acts.perform h₁
          split
          case isTrue hfetch =>
              have hn : OpensAt s.nodes n := opensAt_of_not_shut h hnode fun hshut => by
                rw [hshut.hasChildren] at hfetch
                exact absurd hfetch.2 Bool.false_ne_true
              have hloading := h₁.1.setLoading n true
              have h₂ := hloading.trans (hloading.1.setError none)
              apply Acts.perform h₂
              apply Acts.bind h₂.1
                (keeping_tryFetchChildren hchain h₂.1 ((h₁.trans h₂).2.has hn) none node)
              intro _ s₃ _ h₃
              apply acts_perform (h₃.1.setLoading n false) trivial
          case isFalse => trivial

/-- The next page of a node is fetched. -/
theorem keeping_loadMore (h : Good told s) (n : ℕ) :
  Keeping told (loadMore n chain.rest) s
  := by
  apply respects_bind.mpr
  apply respects_shared.mpr
  split
  case h_1 => trivial
  case h_2 node hnode =>
      split
      case isTrue => trivial
      case isFalse hkey =>
          have hn : OpensAt s.nodes n := opensAt_of_not_shut h hnode fun hshut => by
            rw [hshut.nextPageKey] at hkey
            exact hkey rfl
          have hloading := h.setMoreLoading (node.children.find? s.isLoadMore) true
          have h₁ := hloading.trans (hloading.1.setError none)
          apply Acts.perform h₁
          apply Acts.bind h₁.1
            (keeping_tryFetchChildren hchain h₁.1 (h₁.2.has hn) node.nextPageKey node)
          intro _ s₂ _ h₂
          apply acts_perform (h₂.1.setMoreLoading _ false) trivial

end Calls

/-! ### Searches -/

/-- A key that is to be watched is kept with the group of its namespace. -/
theorem Good.setPending (h : Good told s) {n : ℕ} (hn : Has s.nodes n (· = .group))
    (pendingWatchKey : Option (List Char)) (pendingStoreKey : Node → Option (List Char)) :
  Goes told s (s.setNode n fun node =>
    { node with pendingWatchKey := pendingWatchKey, pendingStoreKey := pendingStoreKey node })
  := by
  have hfixed (node : Node) : ({ node with
      pendingWatchKey := pendingWatchKey
      pendingStoreKey := pendingStoreKey node } : Node).fixed = node.fixed := rfl
  apply h.setNodes _ (keeps_modify hfixed n s.nodes) s.error
  apply h.nodes.modify hfixed
  intro node hnode
  obtain ⟨node', hnode', hgroup⟩ := hn
  obtain rfl := Option.some.inj (hnode.symm.trans hnode')
  obtain ⟨hknown, hbelow⟩ := h.nodes n node hnode
  exact ⟨hknown.change (hfixed node) (.inl ⟨rfl, rfl⟩) (.inr hgroup), hbelow⟩

theorem children_searchNamespace {node searched : StateNode} {contractAddr ns key : List Char}
    {result : SearchResult}
    (h : searchNamespace node contractAddr ns key = some (searched, result)) :
  result.children = none
  := by
  rw [searchNamespace] at h
  split at h
  case h_1 =>
      obtain ⟨-, rfl⟩ := Prod.mk.inj (Option.some.inj h)
      rfl
  case h_2 =>
      obtain ⟨pending, -, h⟩ := Option.bind_eq_some_iff.mp h
      obtain ⟨-, rfl⟩ := Prod.mk.inj (Option.some.inj h)
      rfl

theorem foundFits_of_none {result : SearchResult} (h : result.children = none) :
  FoundFits told result
  := by
  simp [FoundFits, h]

/-- The answer to a search is shown. -/
theorem Good.showResult (h : Good told s) (c : ℕ) {result : SearchResult}
    (hresult : FoundFits told result) :
  Goes told s (s.showResult c result)
  := by
  have hshow {nodes : List Node} (hsound : Sound told nodes) (hkeeps : Keeps s.nodes nodes)
      {children : Option (List ℕ)}
      (hchildren : ∀ n ∈ children.getD [], Has nodes n fun r => r = .group ∨ r = .leaf) :
      Goes told s (Page.setComponent c
        (fun component => { component with
          searchResult := some ⟨result.found, result.value, children⟩ })
        { s with nodes := nodes }) := by
    have hnodes := h.setNodes hsound hkeeps s.error
    apply hnodes.trans
    refine hnodes.1.setComponent (fun _ => rfl) ?_
    intro component hcomponent
    obtain ⟨hn, -, ho⟩ := hnodes.1.components component (List.mem_of_getElem? hcomponent)
    refine ⟨hn, ?_, ho⟩
    intro n hn
    simp only [resultChildren] at hn
    split_ifs at hn
    · apply hchildren n hn
    · contradiction
  rw [Page.showResult]
  cases hxs : result.children with
  | none => apply hshow h.nodes (Keeps.refl _) (by simp)
  | some xs =>
      rw [FoundFits, hxs] at hresult
      have hmade := made_createAll xs h.nodes fun x hx => (hresult x hx).1
      apply hshow hmade.sound hmade.keeps
      intro n hn
      obtain ⟨x, hx, node, hnode, hrole⟩ := hmade.handles n hn
      exact ⟨node, hnode, hrole ▸ (hresult x hx).2⟩

/-- Only the groups of namespaces belong to a contract. -/
theorem role_eq_group {node : Node} (hknown : Known told node) (hopens : Opens node)
    (haddr : node.contractAddr ≠ none) :
  node.role = .group
  := by
  cases hr : node.role with
  | top => exact absurd (hknown.top hr).2.contractAddr haddr
  | folder => exact absurd (hknown.folder hr).2.contractAddr haddr
  | group => rfl
  | leaf => exact absurd hr hopens.1
  | placeholder => exact absurd hr hopens.2

/-- A group has an address and a namespace. -/
theorem truthy_group {node : NodeData} {address ns : List Char}
    (h : GroupOf told node address ns) :
  TreeNode.truthy node.contractAddr = some address ∧ TreeNode.truthy node.ns = some ns
  := by
  rw [h.contractAddr, h.ns_eq, TreeNode.truthy_some h.address_ne, TreeNode.truthy_some h.ns_ne]
  exact ⟨rfl, rfl⟩

section Search

variable (hhex : Hexadecimal told) {chain : Chain} (hchain : chain ∈ chains)

include hhex hchain

/-- A search in a folder of the module `wasm`. -/
theorem acts_searchWasm (h : Good told s) {n : ℕ} {node : Node} (hnode : s.nodes[n]? = some node)
    (hopens : Opens node) (hmodule : node.moduleName = "wasm".toList) {key : List Char}
    (hkey : key ≠ []) :
  Acts told (fun result _ => FoundFits told result) (searchWasm n chain.rest key) s
  := by
  have hknown := (h.nodes n node hnode).1
  apply respects_bind.mpr
  apply respects_shared.mpr
  rw [hnode]
  dsimp only
  split
  case h_1 ns contractAddr hns haddr =>
      have hgroup : Has s.nodes n (· = .group) := by
        refine ⟨node, hnode, role_eq_group hknown hopens ?_⟩
        intro hnone
        rw [hnone] at haddr
        contradiction
      split
      case h_1 searched result hsearched =>
          apply Acts.perform (h.setPending hgroup searched.pendingWatchKey
            fun _ => searched.pendingStoreKey)
          apply foundFits_of_none (children_searchNamespace hsearched)
      case h_2 =>
          apply Acts.perform (h.setPending hgroup (some key) fun node => node.pendingStoreKey)
          trivial
  case h_2 hneither =>
      have hgroup : node.role ≠ .group := by
        intro hr
        obtain ⟨address, ns, hgroup⟩ := hknown.group hr
        apply hneither ns address (truthy_group hgroup).2 (truthy_group hgroup).1
      split
      case isTrue hcontracts =>
          have hpath := path_of_contains hknown hopens hgroup hmodule hcontracts (by decide)
          apply acts_of_gives
          apply gives_searchContracts hhex hchain hpath hkey
      case isFalse => apply foundFits_notFound

/-- A search in a folder that can be opened. -/
theorem acts_searchKey (h : Good told s) {n : ℕ} (hn : OpensAt s.nodes n) {key : List Char}
    (hkey : key ≠ []) :
  Acts told (fun result _ => FoundFits told result) (searchKey n chain.rest key) s
  := by
  apply respects_bind.mpr
  apply respects_shared.mpr
  split
  case h_1 => apply foundFits_notFound
  case h_2 node hnode =>
      have hknown := (h.nodes n node hnode).1
      have hopens := opens_of_opensAt hn hnode
      have hname {s : String} (hs : String.ofList node.moduleName = s) :
          node.moduleName = s.toList := by
        rw [← hs, String.toList_ofList]
      split
      case h_1 existing _ => apply foundFits_of_none rfl
      case h_2 =>
          rw [searchers]
          split
          case h_1 hs =>
              apply acts_of_gives
              apply gives_searchBank hchain hknown hopens (hname hs)
          case h_2 hs => apply acts_searchWasm hhex hchain h hnode hopens (hname hs) hkey
          case h_3 =>
              apply acts_of_gives
              apply gives_searchTokenFactory
          case h_4 => apply foundFits_notFound

/-- A component searches for what was typed. -/
theorem keeping_onSearch (h : Good told s) (c : ℕ) {component : Component}
    (hn : OpensAt s.nodes component.node) :
  Keeping told (onSearch c component chain.rest) s
  := by
  rw [onSearch]
  split
  case isTrue => trivial
  case isFalse hinput =>
      have hfinish {s' : Page} (h' : Good told s') :
          Goes told s' (s'.setComponent c fun component =>
            { component with searching := false }) :=
        h'.searchField c fun _ => ⟨rfl, rfl, rfl, fun _ hn => hn⟩
      have h₁ : Goes told s (s.setComponent c fun component => { component with
          searching := true, searchResult := none, displayedSearchCount := PAGE_SIZE }) := by
        apply h.searchField c
        intro component
        refine ⟨rfl, rfl, rfl, ?_⟩
        simp [resultChildren]
      apply Acts.perform h₁
      apply Acts.bind (P := fun _ _ => True) h₁.1
      · apply Acts.tryCatch h₁.1
        · apply Acts.bind h₁.1 (acts_searchKey hhex hchain h₁.1 (h₁.2.has hn) hinput)
          intro result s₂ hresult h₂
          apply acts_perform (h₂.1.showResult c hresult) trivial
        · intro e s₂ h₂
          apply Acts.perform (hfinish h₂.1)
          trivial
      · intro _ s₃ _ h₃
        apply acts_perform (hfinish h₃.1) trivial

end Search

end Page

end Explorer
