import InterchainEvents.Explorer.Calls

/-!
# The explorer subscribes to what it shows

Whatever is done on the page, and in whatever order the answers of nodes come, or not: when a modal
can subscribe, the message watches the key of the entry that the displayed path names, and the value
that is displayed is the one that a node has told of that entry (`subscribe_reported`). A modal that
was opened for a key that a search has found cannot subscribe.
-/

namespace Explorer

open Shared Async Machine

namespace Page

variable {told : (req : Request) → req.Answer → Prop} {s : Page}

/-! ### Mounting -/

/-- The modules of a chain are shown. -/
theorem Good.setModules (h : Good told s) (modules : List (List Char)) :
  Goes told s (s.setModules modules)
  := by
  have hmade := made_createAll (modules.map fun m => makeFolder m [] m plain) h.nodes (by
    intro x hx
    obtain ⟨m, -, rfl⟩ := List.mem_map.mp hx
    apply (grown_module m).1)
  refine ⟨⟨hmade.sound, ?_, h.chain, ?_⟩, hmade.keeps⟩
  · intro n hn
    obtain ⟨x, hx, node, hnode, hrole⟩ := hmade.handles n hn
    obtain ⟨m, -, rfl⟩ := List.mem_map.mp hx
    exact ⟨node, hnode, hrole⟩
  · exact fun component hc => (h.components component hc).mono hmade.keeps List.prefix_rfl

theorem Good.showModules (h : Good told s) :
  Goes told s s.showModules
  := by
  rw [Page.showModules]
  split
  case h_1 chain _ => apply h.setModules
  case h_2 => apply h.goes

theorem Good.onSelectChain (h : Good told s) (chainId : List Char) :
  Goes told s (s.onSelectChain chainId)
  := by
  have hselected : Goes told s (s.selectChain chainId) := by
    refine ⟨⟨h.nodes, h.tree, ?_, h.components⟩, Keeps.refl _⟩
    intro chain hchain
    have hfound : chains.find? (·.id = chainId) = some chain := hchain
    apply List.mem_of_find?_eq_some hfound
  exact hselected.trans hselected.1.showModules

/-- The node of a component may stand where the component does. -/
theorem Good.stands (h : Good told s) {c : ℕ} {component : Component}
    (hcomponent : s.components[c]? = some component) {node : Node}
    (hnode : s.nodes[component.node]? = some node) :
  Stands s.spots component.spot node.role
  := by
  obtain ⟨node', hnode', hstands⟩ :=
    (h.components component (List.mem_of_getElem? hcomponent)).node
  obtain rfl := Option.some.inj (hnode.symm.trans hnode')
  apply hstands

/-- A child may stand below the node of a component. -/
theorem stands_child {parent : ℕ} {spot : Spot} {r r' : Role}
    (hspot : s.spots[parent]? = some spot) (hr : Stands s.spots spot r) (hunder : Under r r') :
  Stands s.spots (.child parent) r'
  := by
  refine ⟨spot, hspot, ?_⟩
  cases spot with
  | top =>
      obtain rfl := hr
      apply hunder
  | child grandparent =>
      obtain ⟨_, -, hr⟩ := hr
      split_ifs at hr
      · obtain rfl := hr
        apply hunder
      · rcases hr with rfl | rfl
        · contradiction
        · contradiction
  | result grandparent =>
      obtain rfl := hr
      apply hunder

/-- What is displayed in a place may stand there. -/
theorem has_of_displays (h : Good told s) {n : ℕ} {spot : Spot} (hn : s.displays n spot) :
  Has s.nodes n (Stands s.spots spot)
  := by
  cases spot with
  | top => apply h.tree n (of_decide_eq_true hn)
  | child parent =>
      obtain ⟨component, hcomponent, hn⟩ := (Option.any_eq_true _ _).mp hn
      obtain ⟨node, hnode, hn⟩ := (Option.any_eq_true _ _).mp hn
      have hchild := of_decide_eq_true (Bool.and_eq_true_iff.mp hn).2
      apply ((h.nodes _ node hnode).2 n hchild).mono
      intro r' hunder
      apply stands_child _ (h.stands hcomponent hnode) hunder
      rw [spots, List.getElem?_map, hcomponent]
      rfl
  | result parent =>
      obtain ⟨component, hcomponent, hn⟩ := (Option.any_eq_true _ _).mp hn
      obtain ⟨node, hnode, hn⟩ := (Option.any_eq_true _ _).mp hn
      obtain ⟨hn, hchildren⟩ := Bool.and_eq_true_iff.mp hn
      obtain ⟨found, hfound, hchildren⟩ := (Option.any_eq_true _ _).mp hchildren
      have hresult := of_decide_eq_true hn
      rw [displayedSearchChildren] at hresult
      split_ifs at hresult
      · obtain ⟨found', hfound', hrole⟩ :=
          (h.components component (List.mem_of_getElem? hcomponent)).results n
            (List.mem_of_mem_take hresult)
        obtain rfl := Option.some.inj (hfound.symm.trans hfound')
        refine ⟨found, hfound, hrole.resolve_right fun hleaf => ?_⟩
        rw [((h.nodes n found hfound).1.shut (.inl hleaf)).hasChildren] at hchildren
        contradiction
      · exact absurd hresult List.not_mem_nil

/-- A component is mounted. -/
theorem Good.mount (h : Good told s) {n : ℕ} {spot : Spot} (hn : s.displays n spot) :
  Goes told s { s with components := s.components ++ [{ spot, node := n }] }
  := by
  have hspots : s.spots
      <+: spots { s with components := s.components ++ [{ spot, node := n }] } := by
    rw [spots, spots, List.map_append]
    apply List.prefix_append
  refine ⟨⟨h.nodes, h.tree, h.chain, ?_⟩, Keeps.refl _⟩
  intro component hcomponent
  rcases List.mem_append.mp hcomponent with hcomponent | hcomponent
  · apply (h.components component hcomponent).mono (Keeps.refl _) hspots
  · obtain rfl := List.mem_singleton.mp hcomponent
    refine ⟨?_, by simp [resultChildren], ?_, ?_⟩
    · apply (has_of_displays h hn).mono
      exact fun r hr => hr.mono hspots
    · exact fun data hdata => absurd hdata.symm (Option.some_ne_none data)
    · exact fun _ => .inl ⟨rfl, rfl⟩

/-- A component gets another node that may stand in its place. -/
theorem Good.rebind (h : Good told s) (c : ℕ) {n : ℕ}
    (hn : ∀ component, s.components[c]? = some component → s.displays n component.spot) :
  Goes told s (s.setComponent c fun component => { component with node := n })
  := by
  refine h.setComponent (fun _ => rfl) ?_
  intro component hcomponent
  obtain ⟨-, hr, ho⟩ := h.components component (List.mem_of_getElem? hcomponent)
  exact ⟨has_of_displays h (hn component hcomponent), hr, ho⟩

/-! ### Opening modals -/

section Opening

variable {c : ℕ} {component : Component} (h : Good told s)
  (hcomponent : s.components[c]? = some component) {node : Node}
  (hnode : s.nodes[component.node]? = some node)

include h hnode

/-- Where there is a search field, the node can be opened. -/
theorem opensAt_of_searchBar (hsearch : searchBar component node) :
  OpensAt s.nodes component.node
  := by
  apply opensAt_of_not_shut h hnode
  intro hshut
  simp [searchBar, canWatchFolder, hshut.searchable, hshut.hasChildren] at hsearch

include hcomponent

theorem folderSpot_of_searchBar (hsearch : searchBar component node) :
  FolderSpot s.spots component.spot
  := by
  obtain ⟨hleaf, hplaceholder⟩ := opens_of_opensAt (opensAt_of_searchBar h hnode hsearch) hnode
  exact folderSpot_of_opens (h.stands hcomponent hnode) hleaf hplaceholder

/-- The modal for the key that was typed watches that key, or cannot subscribe. -/
theorem openingFits_forSearch (hsearch : searchBar component node) {opening : Opening}
    (hopening : openSubscribeForSearch node.toNodeData component.searchInput = some opening) :
  OpeningFits told s.spots component.spot opening
  := by
  have hspot := folderSpot_of_searchBar h hcomponent hnode hsearch
  have hopens := opens_of_opensAt (opensAt_of_searchBar h hnode hsearch) hnode
  have hknown := (h.nodes _ node hnode).1
  simp only [openSubscribeForSearch] at hopening
  split_ifs at hopening with hinput
  split at hopening
  case h_1 contractAddr ns haddr hns =>
      obtain rfl := Option.some.inj hopening
      have hr : node.role = .group := role_eq_group hknown hopens fun hnone => by
        rw [hnone] at haddr
        contradiction
      obtain ⟨address, ns', hgroup⟩ := hknown.group hr
      obtain rfl := Option.some.inj ((truthy_group hgroup).1.symm.trans haddr)
      obtain rfl := Option.some.inj ((truthy_group hgroup).2.symm.trans hns)
      refine ⟨?_, fun hnone => absurd hnone (Option.some_ne_none _)⟩
      intro data hdata
      obtain rfl := Option.some.inj hdata
      refine ⟨?_, rfl, .inl rfl⟩
      obtain ⟨payload, m, raw, key, htold, hparts⟩ := hgroup.told
      intro k hk
      obtain rfl := Option.some.inj hk
      rw [TreeNode.fullStoreKey_eq (wasmStoreKeyForNsEntry_eq htold.address _ _),
        nsEntryKey_eq payload (length_encode_lt hparts), watchKeyBytes_encode]
      simp only [TreeNode.syntheticNode, hgroup.path]
      apply Reported.typed htold hparts
  case h_2 hneither =>
      have hpending : TreeNode.truthy node.pendingStoreKey = none := by
        cases hr : node.role with
        | top =>
            rw [(hknown.top hr).2.pendingStoreKey]
            rfl
        | folder =>
            rw [(hknown.folder hr).2.pendingStoreKey]
            rfl
        | group =>
            obtain ⟨address, ns, hgroup⟩ := hknown.group hr
            exact (hneither address ns (truthy_group hgroup).1 (truthy_group hgroup).2).elim
        | leaf => exact absurd hr hopens.1
        | placeholder => exact absurd hr hopens.2
      obtain rfl := Option.some.inj hopening
      rw [openSubscribeExists, hpending]
      refine ⟨fun data hdata => absurd hdata.symm (Option.some_ne_none data), fun _ => .inr hspot⟩

end Opening

/-! ### Events -/

theorem keeping_atNode {c : ℕ} {f : Component → Node → Chain → Task Unit}
    (hf : ∀ component node chain, s.components[c]? = some component →
      s.nodes[component.node]? = some node → s.selectedChain = some chain →
      Keeping told (f component node chain) s) :
  Keeping told (atNode c f) s
  := by
  apply respects_bind.mpr
  apply respects_shared.mpr
  split
  case h_1 => trivial
  case h_2 component hcomponent =>
      split
      case h_1 node chain hnode hchain =>
          split
          case isTrue => trivial
          case isFalse => apply hf component node chain hcomponent hnode hchain
      case h_2 => trivial

/-- **Whatever happens keeps the page good.** -/
theorem keeping_task (hhex : Hexadecimal told) (h : Good told s) (e : Event) :
  Keeping told e.task s
  := by
  cases e with
  | onMounted => apply acts_perform h.showModules trivial
  | onSelectChain chainId => apply acts_perform (h.onSelectChain chainId) trivial
  | mount spot n =>
      apply acts_perform _ trivial
      split
      case isTrue hn => apply h.mount hn
      case isFalse => apply h.goes
  | rebind c n =>
      apply acts_perform _ trivial
      dsimp only
      split
      case isTrue hsame =>
          apply h.rebind c
          intro component hcomponent
          rw [hcomponent, Option.any_some] at hsame
          apply (Bool.and_eq_true_iff.mp hsame).1
      case isFalse => apply h.goes
  | typed c text =>
      apply keeping_atNode
      intro component node chain _ _ _
      split
      case isTrue =>
          apply acts_perform _ trivial
          exact h.searchField c fun _ => ⟨rfl, rfl, rfl, fun _ hn => hn⟩
      case isFalse => trivial
  | rowClicked c =>
      apply keeping_atNode
      intro component node chain _ _ hchain
      rw [onRowClick]
      split_ifs
      · apply keeping_toggleNode (h.chain chain hchain) h
      · apply acts_perform (h.setExpanded _ _) trivial
      · trivial
  | loadMoreClicked c =>
      apply respects_bind.mpr
      apply respects_shared.mpr
      split
      case h_1 => trivial
      case h_2 placeholder _ =>
          split
          case h_1 parent _ _ =>
              apply keeping_atNode
              intro component node chain _ _ hchain
              apply keeping_loadMore (h.chain chain hchain) h
          case h_2 => trivial
  | searched c =>
      apply keeping_atNode
      intro component node chain _ hnode hchain
      split
      case isTrue hsearch =>
          apply keeping_onSearch hhex (h.chain chain hchain) h
          apply opensAt_of_searchBar h hnode hsearch
      case isFalse => trivial
  | moreResultsClicked c =>
      apply keeping_atNode
      intro component node chain _ _ _
      split
      case isTrue =>
          apply acts_perform _ trivial
          exact h.searchField c fun _ => ⟨rfl, rfl, rfl, fun _ hn => hn⟩
      case isFalse => trivial
  | leafWatched c =>
      apply keeping_atNode
      intro component node chain _ _ _
      split
      case isTrue =>
          apply acts_perform _ trivial
          apply h.openModal
          intro component' _
          exact ⟨fun data hdata => absurd hdata.symm (Option.some_ne_none data),
            fun _ => .inl ⟨rfl, rfl⟩⟩
      case isFalse => trivial
  | searchWatched c =>
      apply keeping_atNode
      intro component node chain hcomponent hnode _
      split
      case isTrue hsearch =>
          split
          case h_1 opening hopening =>
              apply acts_perform _ trivial
              apply h.openModal
              intro component' hcomponent'
              obtain rfl := Option.some.inj (hcomponent.symm.trans hcomponent')
              apply openingFits_forSearch h hcomponent hnode hsearch hopening
          case h_2 => trivial
      case isFalse => trivial
  | childWatched c n =>
      apply respects_bind.mpr
      apply respects_shared.mpr
      apply keeping_atNode
      intro component node chain _ _ _
      split
      case h_1 child hchild =>
          split
          case isTrue =>
              apply acts_perform _ trivial
              apply h.openModal
              intro component' _
              refine ⟨?_, fun hnone => absurd hnone (Option.some_ne_none _)⟩
              intro data hdata
              obtain rfl := Option.some.inj hdata
              exact ⟨(h.nodes n child hchild).1.said, rfl, .inr rfl⟩
          case isFalse => trivial
      case h_2 => trivial
  | conditionClicked c condition =>
      apply keeping_atNode
      intro component node chain hcomponent hnode _
      split
      case h_1 value hvalue =>
          have hsearch : searchBar component node := by
            rw [foundValue] at hvalue
            split at hvalue
            case h_1 =>
                obtain ⟨hsearch, -⟩ := Option.ite_none_right_eq_some.mp hvalue
                simp only [Bool.and_eq_true] at hsearch
                apply hsearch.1.1
            case h_2 => contradiction
          apply acts_perform _ trivial
          apply h.openModal
          intro component' hcomponent'
          obtain rfl := Option.some.inj (hcomponent.symm.trans hcomponent')
          exact ⟨fun data hdata => absurd hdata.symm (Option.some_ne_none data),
            fun _ => .inr (folderSpot_of_searchBar h hcomponent hnode hsearch)⟩
      case h_2 => trivial
  | closed c =>
      apply acts_perform _ trivial
      refine h.setComponent (fun _ => rfl) ?_
      intro component hcomponent
      obtain ⟨hn, hr, ho⟩ := h.components component (List.mem_of_getElem? hcomponent)
      exact ⟨hn, hr, ho⟩

/-! ### Runs -/

/-- What happens to the page. -/
abbrev Act : Type := Action Page (Page → Page) (List Char) Request.Answer

/-- The page, and where its calls are. -/
abbrev Host : Type := System Page (Page → Page) (List Char) Request.Answer

/-- What nodes have told in a run. -/
def Told (h : List (Host × Act)) (req : Request) (a : req.Answer) : Prop :=
  ∃ task, (task, .got req (.ok a)) ∈ trace apply h

/-- A run of the page, in which events make its calls. -/
structure Runs (h : List (Host × Act)) (s : Host) : Prop where
  run : Run (step apply) (.initial initial) h s
  events : ∀ p ∈ programs h, ∃ e : Event, e.task = p

/-- The page stays good. -/
theorem Runs.good {h : List (Host × Act)} {s : Host} (hrun : Runs h s)
    (hhex : Hexadecimal (Told h)) :
  Good (Told h) s.state
  := by
  refine (Respects.run (R := fun s s' => Keeps s.nodes s'.nodes) (A := Answers (Told h))
    (fun s => Keeps.refl s.nodes) (fun _ _ _ => Keeps.trans) hrun.run good_initial ?_ ?_).1
  · intro p hp s' hs'
    obtain ⟨e, rfl⟩ := hrun.events p hp
    apply keeping_task hhex hs'
  · rintro task req answer hgot a rfl
    use task

/-! ### Modals -/

theorem storeKey_ne_of_handleSubmit {connected : Bool} {form : Form} {msg : SubscribeMsg}
    (h : handleSubmit connected form = .ok msg) :
  form.storeKey ≠ none ∧ msg.keyPath = [form.storeName]
  := by
  simp only [handleSubmit] at h
  split_ifs at h with _ _ hkey
  split at h
  · cases h
  · obtain rfl := Except.ok.inj h
    refine ⟨?_, rfl⟩
    intro hnone
    rw [hnone] at hkey
    exact hkey rfl

/-- A modal that has a key is opened on a node that says what was told, with its value. -/
theorem says_of_opening {spots : List Spot} {spot : Spot} {opening : Opening}
    (hopening : OpeningFits told spots spot opening) {node : NodeData} (hsaid : Says told node)
    (hfolder : FolderSpot spots spot → node.storeKey = none) {key : List Char}
    (hkey : (opening.modal node).storeKey = some key) :
  opening.preSearchKey = none ∧ Says told (opening.node.getD node) ∧
    (opening.preValue = none ∨ opening.preValue = (opening.node.getD node).value)
  := by
  cases hown : opening.node with
  | some data =>
      obtain ⟨hdata, hsearch, hvalue⟩ := hopening.own data hown
      exact ⟨hsearch, hdata, hvalue⟩
  | none =>
      rcases hopening.component hown with ⟨hsearch, hvalue⟩ | hspot
      · exact ⟨hsearch, hsaid, .inl hvalue⟩
      · have hnone : (opening.modal node).storeKey = node.storeKey := by
          rw [TreeNode.Modal.storeKey, Opening.modal, hown, Option.getD_none]
        rw [hnone, hfolder hspot] at hkey
        contradiction

/-- What a modal that has a key shows was told. -/
theorem says_of_modal (h : Good told s) {c : ℕ} {modal : TreeNode.Modal}
    (hmodal : s.modal c = some modal) {key : List Char} (hkey : modal.storeKey = some key) :
  modal.preSearchKey = none ∧ Reported told modal.displayPath modal.storeName
    (watchKeyBytes (String.ofList key)) modal.currentValue
  := by
  obtain ⟨component, hcomponent, hmodal⟩ := Option.bind_eq_some_iff.mp hmodal
  obtain ⟨node, hnode, hmodal⟩ := Option.bind_eq_some_iff.mp hmodal
  obtain ⟨-, hmodal⟩ := Option.ite_none_right_eq_some.mp hmodal
  obtain rfl := Option.some.inj hmodal
  have hknown := (h.nodes _ node hnode).1
  obtain ⟨hsearch, hsaid, hvalue⟩ := says_of_opening
    (h.components component (List.mem_of_getElem? hcomponent)).opening hknown.said
    (fun hspot => hknown.storeKey_eq_none
      (ne_leaf_of_folderSpot (h.stands hcomponent hnode) hspot)) hkey
  use hsearch
  have hreported := hsaid key hkey
  have hpath : (component.opening.modal node.toNodeData).displayPath
      = (component.opening.node.getD node.toNodeData).path := by
    simp [TreeNode.Modal.displayPath, Opening.modal, hsearch, TreeNode.truthy]
  have hcurrent : (component.opening.modal node.toNodeData).currentValue
      = (component.opening.node.getD node.toNodeData).value := by
    simp only [TreeNode.Modal.currentValue, Opening.modal]
    rcases hvalue with hvalue | hvalue
    · rw [hvalue, Option.none_or]
    · rw [hvalue, Option.or_self]
  rw [hpath, hcurrent]
  exact hreported

/-- **The explorer subscribes to what it shows.** Whatever happens on the page, and whenever: if
the form of a modal that is shown makes a message, the contract reads from it the key of the store
that the displayed path names, and the value that is displayed is the one that a node has told of
the entry. No modal that was opened for a key that was searched for makes a message. -/
theorem subscribe_reported {h : List (Host × Act)} {s : Host} (hrun : Runs h s)
    (hhex : Hexadecimal (Told h)) {c : ℕ} {modal : TreeNode.Modal}
    (hmodal : s.state.modal c = some modal) {form : Form} (hform : modal.IsForm form)
    {connected : Bool} {msg : SubscribeMsg} (hsubmit : handleSubmit connected form = .ok msg) :
  ∃ key, msg.keyPath = [String.ofList modal.storeName] ∧ ofBase64 msg.watchKey = some key ∧
    Reported (Told h) modal.displayPath modal.storeName key modal.currentValue ∧
    modal.preSearchKey = none
  := by
  obtain ⟨hne, hkeyPath⟩ := storeKey_ne_of_handleSubmit hsubmit
  obtain ⟨hstoreName, hstoreKey⟩ := hform
  obtain ⟨key, hkey⟩ : ∃ key, modal.storeKey = some key := by
    cases hkey : modal.storeKey with
    | none =>
        rw [hstoreKey, hkey] at hne
        contradiction
    | some key => use key
  obtain ⟨hsearch, hreported⟩ := says_of_modal (hrun.good hhex) hmodal hkey
  use watchKeyBytes (String.ofList key)
  rw [hkeyPath, hstoreName, watchKey_of_handleSubmit hsubmit, hstoreKey, hkey, ofBase64_toBase64]
  exact ⟨rfl, rfl, hreported, hsearch⟩

/-! ### A run -/

/-- A contract is told of, with one entry, and nothing else is. -/
def sampleAnswer : (req : Request) → Except (List Char) req.Answer
  | ⟨.contract, _, _⟩ => .ok ⟨"registry".toList, "9".toList⟩
  | ⟨.models, _, _⟩ =>
      .ok [⟨"000C6174746573746174696F6E736B7963".toList, "ImFwcHJvdmVkIg==".toList⟩]
  | _ => .error "404".toList

/-- In the module `wasm` the contract is searched for by its address, the group of the namespace
that is found is opened, and the watch button of its only entry is clicked. -/
def sampleActs : List Act :=
  [.spawn (Event.task .onMounted), .spawn (Event.task (.mount .top 1)),
    .spawn (Event.task (.rowClicked 0)), .spawn (Event.task (.mount (.child 0) 16)),
    .spawn (Event.task (.rowClicked 1)),
    .spawn (Event.task (.typed 1 "neutron1qyqs8jevwd".toList)),
    .spawn (Event.task (.searched 1)), .resume 6 sampleAnswer, .resume 6 sampleAnswer,
    .spawn (Event.task (.mount (.result 1) 18)), .spawn (Event.task (.rowClicked 2)),
    .spawn (Event.task (.mount (.child 2) 17)), .spawn (Event.task (.leafWatched 3))]

/-- Where the entry stands in the explorer. -/
def samplePath : List (List Char) :=
  ["wasm".toList, "contracts".toList, "neutron1qyqs8jevwd".toList, "attestations/".toList,
    "kyc".toList]

/-- The form of its modal. -/
def sampleModalForm : Form :=
  { sampleForm with
    storeName := "wasm"
    storeKey := some "030101000c6174746573746174696f6e736b7963"
    condition := .exists }

theorem shown_sampleActs :
  ((exec (step apply) (.initial initial) sampleActs).bind fun r => r.2.state.modal 3).map
      (fun modal => (modal.storeName, modal.storeKey, modal.displayPath, modal.currentValue))
    = some ("wasm".toList, some "030101000c6174746573746174696f6e736b7963".toList, samplePath,
        some "\"approved\"".toList)
  := by decide +kernel

/-- The modal of the entry is shown. -/
theorem exec_sampleActs :
  ∃ h s modal, exec (step apply) (.initial initial) sampleActs = some (h, s) ∧
    s.state.modal 3 = some modal ∧ modal.IsForm sampleModalForm ∧ modal.storeName = "wasm".toList ∧
    modal.displayPath = samplePath ∧ modal.currentValue = some "\"approved\"".toList
  := by
  obtain ⟨modal, hmodal, hshown⟩ := Option.map_eq_some_iff.mp shown_sampleActs
  obtain ⟨⟨h, s⟩, hexec, hmodal⟩ := Option.bind_eq_some_iff.mp hmodal
  simp only [Prod.mk.injEq] at hshown
  obtain ⟨hstoreName, hstoreKey, hpath, hvalue⟩ := hshown
  refine ⟨h, s, modal, hexec, hmodal, ⟨?_, ?_⟩, hstoreName, hpath, hvalue⟩
  · rw [hstoreName]
    rfl
  · rw [hstoreKey]
    rfl

/-- Events make the calls of the run. -/
theorem runs_sampleActs {h : List (Host × Act)} {s : Host}
    (hexec : exec (step apply) (.initial initial) sampleActs = some (h, s)) :
  Runs h s
  := by
  refine ⟨run_of_exec hexec, ?_⟩
  intro p hp
  obtain ⟨x, hx, hspawned⟩ := List.mem_filterMap.mp hp
  have hact : x.2 ∈ sampleActs := by
    rw [← actions_of_exec hexec]
    apply List.mem_map_of_mem hx
  cases hcases : x.2 with
  | resume task answer =>
      rw [hcases] at hspawned
      cases hspawned
  | spawn q =>
      rw [hcases] at hact hspawned
      obtain rfl := Option.some.inj hspawned
      simp only [sampleActs, List.mem_cons, List.not_mem_nil, or_false, reduceCtorEq, false_or,
        Action.spawn.injEq] at hact
      rcases hact with hact | hact | hact | hact | hact | hact | hact | hact | hact | hact | hact
      all_goals exact ⟨_, hact.symm⟩

/-- The key of the entry is told in hexadecimal. -/
theorem hexadecimal_sampleActs {h : List (Host × Act)} {s : Host}
    (hexec : exec (step apply) (.initial initial) sampleActs = some (h, s)) :
  Hexadecimal (Told h)
  := by
  rintro url query models ⟨task, htold⟩ m hm
  obtain ⟨x, hx, given, hgiven, hanswer⟩ := exists_resume_of_got htold
  have hact : x.2 ∈ sampleActs := by
    rw [← actions_of_exec hexec]
    apply List.mem_map_of_mem hx
  rw [hgiven] at hact
  simp only [sampleActs, List.mem_cons, List.not_mem_nil, or_false, reduceCtorEq, false_or,
    Action.resume.injEq, or_self] at hact
  rw [hact.2] at hanswer
  obtain rfl := Except.ok.inj hanswer
  obtain rfl := List.mem_singleton.mp hm
  exact ⟨_, rfl⟩

theorem handleSubmit_sampleModalForm :
  ∃ msg, handleSubmit true sampleModalForm = .ok msg
  := by
  have hready : Ready sampleModalForm := ⟨by decide, by decide +kernel, by decide⟩
  obtain ⟨s, hs⟩ : ∃ s, Js.btoa sampleModalForm.callbackMsg.toList = some s := ⟨_, rfl⟩
  exact ⟨_, (handleSubmit_ok_iff hready).mpr ⟨s, hs, rfl⟩⟩

theorem subscribe_reported_sample :
  ∃ h s modal msg key, Runs h s ∧ s.state.modal 3 = some modal ∧ modal.IsForm sampleModalForm ∧
    handleSubmit true sampleModalForm = .ok msg ∧ msg.keyPath = ["wasm"] ∧
    ofBase64 msg.watchKey = some key ∧
    Reported (Told h) samplePath "wasm".toList key (some "\"approved\"".toList)
  := by
  obtain ⟨h, s, modal, hexec, hmodal, hform, hstoreName, hpath, hvalue⟩ := exec_sampleActs
  obtain ⟨msg, hsubmit⟩ := handleSubmit_sampleModalForm
  obtain ⟨key, hkeyPath, hkey, hreported, -⟩ := subscribe_reported (runs_sampleActs hexec)
    (hexadecimal_sampleActs hexec) hmodal hform hsubmit
  rw [hpath, hstoreName, hvalue] at hreported
  rw [hstoreName] at hkeyPath
  exact ⟨h, s, modal, msg, key, runs_sampleActs hexec, hmodal, hform, hsubmit, hkeyPath, hkey,
    hreported⟩

end Page

end Explorer
