import InterchainEvents.Async.Invariant
import InterchainEvents.Explorer.Nodes

/-!
# What the fetchers give

Whatever nodes tell, the functions that fetch the children of a node give nodes that are known and
may stand below it (`gives_fetchers`), and so do the functions that search (`gives_searchBank`,
`gives_searchContracts`, `gives_searchTokenFactory`).
-/

namespace Explorer

open Shared Async

variable {σ Cmd : Type} {α β : Type} {told : (req : Request) → req.Answer → Prop}

/-! ### Programs that only ask -/

variable (told) in
/-- The answers are told. -/
def Answers (req : Request) (answer : Except (List Char) req.Answer) : Prop :=
  ∀ a, answer = .ok a → told req a

variable (told) in
/-- Whatever is told and whatever others do, the program only ends with `Q`, unless it fails. -/
def Gives (Q : α → Prop) (p : Rest σ Cmd α) : Prop :=
  ∀ apply I R s, Respects apply I R (Answers told) (fun a _ => Q a) (fun _ _ => True) p s

theorem gives_pure {Q : α → Prop} {a : α} (h : Q a) :
  Gives told Q (pure a : Rest σ Cmd α)
  := fun _ _ _ _ => h

theorem gives_throw {Q : α → Prop} (e : List Char) :
  Gives told Q (throw e : Rest σ Cmd α)
  := fun _ _ _ _ => trivial

theorem gives_fetch {kind : Kind} {url : List Char} {query : List (List Char × List Char)}
    {Q : kind.Answer → Prop} (h : ∀ a, told ⟨kind, url, query⟩ a → Q a) :
  Gives told Q (fetch kind url query : Rest σ Cmd kind.Answer)
  := by
  intro apply I R s
  apply respects_request.mpr
  intro s' _ _
  exact ⟨fun a hA => h a (hA a rfl), fun _ _ => trivial⟩

theorem gives_bind {P : α → Prop} {Q : β → Prop} {p : Rest σ Cmd α} {f : α → Rest σ Cmd β}
    (hp : Gives told P p) (hf : ∀ a, P a → Gives told Q (f a)) :
  Gives told Q (p >>= f)
  := by
  intro apply I R s
  apply respects_bind.mpr
  apply (hp apply I R s).mono
  · intro a s' ha
    apply hf a ha
  · exact fun _ _ h => h

theorem gives_fromExcept {Q : α → Prop} {r : Except (List Char) α} (h : ∀ a, r = .ok a → Q a) :
  Gives told Q (fromExcept r : Rest σ Cmd α)
  := by
  cases r with
  | ok a => apply gives_pure (h a rfl)
  | error e => apply gives_throw

theorem gives_tryCatch {Q : α → Prop} {p : Rest σ Cmd α} {f : List Char → Rest σ Cmd α}
    (hp : Gives told Q p) (hf : ∀ e, Gives told Q (f e)) :
  Gives told Q (tryCatch p f)
  := by
  intro apply I R s
  apply respects_handle.mpr
  apply (hp apply I R s).mono
  · exact fun _ _ h => h
  · intro e s' _
    apply hf e

/-! ### Pages -/

variable (told) in
/-- A page of children that may stand below a node. -/
structure PageFits (node : Node) (page : List StateNode × Option (List Char)) : Prop where
  nodes : ∀ x ∈ page.1, Grown told x ∧ Under node.role x.object.role
  nextKey : node.role = .top → page.2 = none

/-- A node whose children are fetched: it can be opened. -/
def Opens (node : Node) : Prop :=
  node.role ≠ .leaf ∧ node.role ≠ .placeholder

variable {node : Node}

/-- A node with a path of one member is a module. -/
theorem role_eq_top (hopens : Opens node) (hlength : node.path.length = 1) :
  node.role = .top
  := by
  obtain ⟨hleaf, hplaceholder⟩ := hopens
  simp only [Node.role, hlength] at *
  split_ifs at * <;> simp_all

/-- Leaves may stand below a node with a longer path. -/
theorem under_of_length_ne (hnode : Known told node) (hopens : Opens node)
    (hlength : node.path.length ≠ 1) :
  node.role ≠ .top ∧ Under node.role .leaf
  := by
  cases hr : node.role with
  | top =>
      rw [(hnode.top hr).1] at hlength
      contradiction
  | folder => simp [Under]
  | group => simp [Under]
  | leaf => exact absurd hr hopens.1
  | placeholder => exact absurd hr hopens.2

/-- A node that is no group, with another name than that of its module in its path, is that folder
of the module. -/
theorem path_of_contains {moduleName key : List Char} (hnode : Known told node)
    (hopens : Opens node) (hgroup : node.role ≠ .group) (hmodule : node.moduleName = moduleName)
    (hcontains : node.path.contains key) (hne : key ≠ moduleName) :
  node.path = [moduleName, key]
  := by
  have hkey := List.contains_iff_mem.mp hcontains
  cases hr : node.role with
  | top =>
      rw [(hnode.top hr).1, hmodule] at hkey
      exact absurd (List.mem_singleton.mp hkey) hne
  | folder =>
      obtain ⟨⟨other, hpath⟩, -⟩ := hnode.folder hr
      rw [hpath, hmodule] at hkey ⊢
      rcases List.mem_cons.mp hkey with heq | hkey
      · exact absurd heq hne
      · rw [List.mem_singleton.mp hkey]
  | group => contradiction
  | leaf => exact absurd hr hopens.1
  | placeholder => exact absurd hr hopens.2

/-- Groups belong to the module `wasm`. -/
theorem role_ne_group {moduleName : List Char} (hnode : Known told node)
    (hmodule : node.moduleName = moduleName) (hne : moduleName ≠ "wasm".toList) :
  node.role ≠ .group
  := by
  intro hr
  obtain ⟨address, ns, hgroup⟩ := hnode.group hr
  apply hne
  rw [← hmodule, hgroup.moduleName]

theorem pageFits_nothing (node : Node) :
  PageFits told node (paginated [] none)
  := ⟨by simp [paginated], fun _ => rfl⟩

/-- The folders of a module. -/
theorem pageFits_folders {moduleName : List Char} (hnode : Known told node) (hopens : Opens node)
    (hmodule : node.moduleName = moduleName) (hlength : node.path.length = 1)
    (l : List (List Char × FolderOpts)) (hl : ∀ e ∈ l, e.2.storeKey = none) :
  PageFits told node
    (paginated (l.map fun e => makeFolder moduleName node.path e.1 e.2) none)
  := by
  have hrole := role_eq_top hopens hlength
  have hpath := (hnode.top hrole).1
  rw [hmodule] at hpath
  refine ⟨?_, fun _ => rfl⟩
  intro x hx
  obtain ⟨e, he, rfl⟩ := List.mem_map.mp hx
  obtain ⟨hgrown, hfolder⟩ : Grown told (makeFolder moduleName node.path e.1 e.2) ∧ _ :=
    grown_makeFolder hpath (hl e he)
  refine ⟨hgrown, ?_⟩
  rw [hrole, hfolder]
  rfl

/-- Leaves below a folder. -/
theorem pageFits_leaves (hnode : Known told node) (hopens : Opens node)
    (hlength : node.path.length ≠ 1) {xs : List StateNode} {nextKey : Option (List Char)}
    (hxs : ∀ x ∈ xs, Grown told x ∧ x.object.role = .leaf) :
  PageFits told node (paginated xs nextKey)
  := by
  obtain ⟨hne, hunder⟩ := under_of_length_ne hnode hopens hlength
  refine ⟨?_, fun h => absurd h hne⟩
  intro x hx
  obtain ⟨hgrown, hrole⟩ := hxs x hx
  refine ⟨hgrown, ?_⟩
  rw [hrole]
  apply hunder

/-- A leaf without a key. -/
theorem grown_plainLeaf (moduleName : List Char) (path : List (List Char)) (key value : List Char) :
  Grown told (makeLeaf moduleName path key value ⟨none, none⟩) ∧
    (makeLeaf moduleName path key value ⟨none, none⟩).object.role = .leaf
  := grown_makeLeaf (says_of_none told rfl)

/-- A page of a listing as leaves. -/
theorem pageFits_listed (hnode : Known told node) (hopens : Opens node)
    (hlength : node.path.length ≠ 1) {leaf : α → StateNode} {res : Listing α}
    (hleaf : ∀ x ∈ res.items.getD [], Grown told (leaf x) ∧ (leaf x).object.role = .leaf) :
  PageFits told node (listed leaf res)
  := by
  apply pageFits_leaves hnode hopens hlength
  intro x hx
  obtain ⟨y, hy, rfl⟩ := List.mem_map.mp hx
  apply hleaf y hy

/-- A listing whose items are shown as leaves without keys. -/
theorem gives_listing {kind : Kind} {url : List Char} {query : List (List Char × List Char)}
    {items : kind.Answer → List StateNode × Option (List Char)} (hnode : Known told node)
    (hopens : Opens node) (hlength : node.path.length ≠ 1)
    (hitems : ∀ res, ∀ x ∈ (items res).1, ∃ moduleName path key value,
      x = makeLeaf moduleName path key value ⟨none, none⟩) :
  Gives told (PageFits told node) (do
    return items (← fetch kind url query) : Rest σ Cmd (List StateNode × Option (List Char)))
  := by
  apply gives_bind (gives_fetch fun _ _ => trivial)
  intro res _
  apply gives_pure
  apply pageFits_leaves hnode hopens hlength
  intro x hx
  obtain ⟨moduleName, path, key, value, rfl⟩ := hitems res x hx
  apply grown_plainLeaf

/-- The items of a listing, as leaves without keys. -/
theorem exists_of_mem_listed {leaf : α → StateNode} {res : Listing α}
    (hleaf : ∀ y, ∃ moduleName path key value,
      leaf y = makeLeaf moduleName path key value ⟨none, none⟩) :
  ∀ x ∈ (listed leaf res).1, ∃ moduleName path key value,
    x = makeLeaf moduleName path key value ⟨none, none⟩
  := by
  intro x hx
  obtain ⟨y, -, rfl⟩ := List.mem_map.mp hx
  apply hleaf

/-- What every result of a function has, all have. -/
theorem forall_of_mapM_ok {f : α → Except (List Char) β} {P : β → Prop}
    (hf : ∀ x y, f x = .ok y → P y) {xs : List α} {ys : List β} (h : xs.mapM f = .ok ys) :
  ∀ y ∈ ys, P y
  := by
  induction xs generalizing ys with
  | nil =>
      obtain rfl := Except.ok.inj h
      simp
  | cons x xs ih =>
      rw [List.mapM_cons] at h
      cases hy : f x with
      | error e =>
          rw [hy] at h
          cases h
      | ok y =>
          cases hrest : xs.mapM f with
          | error e =>
              rw [hy, hrest] at h
              cases h
          | ok rest =>
              rw [hy, hrest] at h
              obtain rfl := Except.ok.inj h
              intro z hz
              rcases List.mem_cons.mp hz with rfl | hz
              · apply hf x _ hy
              · apply ih hrest z hz

/-- A page of the parameters of a module. -/
theorem gives_fetchParamLeaves (hnode : Known told node) (hopens : Opens node)
    (hlength : node.path.length ≠ 1) (text : Json.Doc → Except (List Char) (List Char))
    (moduleName url : List Char) :
  Gives told (PageFits told node)
    (fetchParamLeaves text moduleName url node.toNodeData : Rest σ Cmd _)
  := by
  apply gives_bind (gives_fetch fun _ _ => trivial)
  intro params _
  apply gives_bind (gives_fromExcept fun leaves h => h)
  intro leaves hleaves
  apply gives_pure
  apply pageFits_leaves hnode hopens hlength
  refine forall_of_mapM_ok (P := fun x => Grown told x ∧ x.object.role = .leaf) ?_ hleaves
  rintro ⟨k, v⟩ x hx
  cases hvalue : text v with
  | error e => simp [hvalue, Bind.bind, Except.bind] at hx
  | ok value =>
      simp only [hvalue, Bind.bind, Except.bind, pure, Except.pure, Except.ok.injEq] at hx
      obtain rfl := hx
      apply grown_plainLeaf

/-! ### The fetchers -/

section Fetchers

variable (hnode : Known told node) (hopens : Opens node) {rest : List Char}
  {pageKey : Option (List Char)}

include hnode hopens

theorem gives_fetchBank (hmodule : node.moduleName = "bank".toList) {chain : Chain}
    (hchain : chain ∈ chains) :
  Gives told (PageFits told node) (fetchBank chain.rest node.toNodeData pageKey : Rest σ Cmd _)
  := by
  unfold fetchBank
  split_ifs with hlength hsupply
  · apply gives_pure
    apply pageFits_folders hnode hopens hmodule hlength
      [("supply".toList, plain), ("balances".toList, searchFor "Enter address (neutron1...)")]
    simp [plain, searchFor]
  · apply gives_bind (gives_fetch fun _ h => h)
    intro res hres
    apply gives_pure
    apply pageFits_listed hnode hopens hlength
    intro coin hcoin
    apply grown_makeLeaf
    intro key hkey
    obtain rfl := Option.some.inj hkey
    have hpath : node.path = ["bank".toList, "supply".toList] :=
      path_of_contains hnode hopens (role_ne_group hnode hmodule (by decide)) hmodule hsupply
        (by decide)
    rw [watchKeyBytes_toHex]
    simp only [makeLeaf, hpath]
    apply Reported.supply hchain hres hcoin
  · apply gives_pure
    apply pageFits_nothing

theorem gives_fetchStaking (hmodule : node.moduleName = "staking".toList) :
  Gives told (PageFits told node) (fetchStaking rest node.toNodeData pageKey : Rest σ Cmd _)
  := by
  unfold fetchStaking
  split_ifs with hlength
  · apply gives_pure
    apply pageFits_folders hnode hopens hmodule hlength
      [("validators".toList, plain), ("params".toList, plain)]
    simp [plain]
  · apply gives_listing hnode hopens hlength
    exact fun res => exists_of_mem_listed fun _ => ⟨_, _, _, _, rfl⟩
  · apply gives_fetchParamLeaves hnode hopens hlength
  · apply gives_pure
    apply pageFits_nothing

theorem gives_fetchGov (hmodule : node.moduleName = "gov".toList) :
  Gives told (PageFits told node) (fetchGov rest node.toNodeData pageKey : Rest σ Cmd _)
  := by
  unfold fetchGov
  split_ifs with hlength
  · apply gives_pure
    apply pageFits_folders hnode hopens hmodule hlength
      [("proposals".toList, plain), ("params".toList, plain)]
    simp [plain]
  · apply gives_listing hnode hopens hlength
    exact fun res => exists_of_mem_listed fun _ => ⟨_, _, _, _, rfl⟩
  · apply gives_fetchParamLeaves hnode hopens hlength
  · apply gives_pure
    apply pageFits_nothing

theorem gives_fetchIbc (hmodule : node.moduleName = "ibc".toList) :
  Gives told (PageFits told node) (fetchIbc rest node.toNodeData pageKey : Rest σ Cmd _)
  := by
  unfold fetchIbc
  split_ifs with hlength
  · apply gives_pure
    apply pageFits_folders hnode hopens hmodule hlength
      [("clients".toList, plain), ("connections".toList, plain), ("channels".toList, plain)]
    simp [plain]
  · apply gives_listing hnode hopens hlength
    exact fun res => exists_of_mem_listed fun _ => ⟨_, _, _, _, rfl⟩
  · apply gives_listing hnode hopens hlength
    exact fun res => exists_of_mem_listed fun _ => ⟨_, _, _, _, rfl⟩
  · apply gives_listing hnode hopens hlength
    exact fun res => exists_of_mem_listed fun _ => ⟨_, _, _, _, rfl⟩
  · apply gives_pure
    apply pageFits_nothing

theorem gives_fetchWasm (hmodule : node.moduleName = "wasm".toList) :
  Gives told (PageFits told node) (fetchWasm rest node.toNodeData pageKey : Rest σ Cmd _)
  := by
  unfold fetchWasm
  split_ifs with hlength
  · apply gives_pure
    apply pageFits_folders hnode hopens hmodule hlength
      [("codes".toList, plain),
        ("contracts".toList, searchFor "Enter contract address (neutron1...)")]
    simp [plain, searchFor]
  · apply gives_listing hnode hopens hlength
    exact fun res => exists_of_mem_listed fun _ => ⟨_, _, _, _, rfl⟩
  · apply gives_pure
    apply pageFits_nothing

theorem gives_fetchDistribution (hmodule : node.moduleName = "distribution".toList) :
  Gives told (PageFits told node) (fetchDistribution rest node.toNodeData : Rest σ Cmd _)
  := by
  unfold fetchDistribution
  split_ifs with hlength
  · apply gives_pure
    apply pageFits_folders hnode hopens hmodule hlength
      [("params".toList, plain), ("community_pool".toList, plain)]
    simp [plain]
  · apply gives_fetchParamLeaves hnode hopens hlength
  · apply gives_listing hnode hopens hlength
    intro res x hx
    obtain ⟨coin, -, rfl⟩ := List.mem_map.mp hx
    exact ⟨_, _, _, _, rfl⟩
  · apply gives_pure
    apply pageFits_nothing

theorem gives_fetchMint (hmodule : node.moduleName = "mint".toList) :
  Gives told (PageFits told node) (fetchMint rest node.toNodeData : Rest σ Cmd _)
  := by
  unfold fetchMint
  split_ifs with hlength
  · apply gives_pure
    apply pageFits_folders hnode hopens hmodule hlength
      [("params".toList, plain), ("inflation".toList, plain)]
    simp [plain]
  · apply gives_fetchParamLeaves hnode hopens hlength
  · apply gives_listing hnode hopens hlength
    intro res x hx
    obtain rfl := List.mem_singleton.mp hx
    exact ⟨_, _, _, _, rfl⟩
  · apply gives_pure
    apply pageFits_nothing

/-- The modules that show their parameters only. -/
theorem gives_fetchParams {moduleName url : String} (hmodule : node.moduleName = moduleName.toList)
    (text : Json.Doc → Except (List Char) (List Char)) :
  Gives told (PageFits told node)
    (fetchParams text moduleName url rest node.toNodeData : Rest σ Cmd _)
  := by
  unfold fetchParams
  split_ifs with hlength
  · apply gives_pure
    apply pageFits_folders hnode hopens hmodule hlength [("params".toList, plain)]
    simp [plain]
  · apply gives_fetchParamLeaves hnode hopens hlength
  · apply gives_pure
    apply pageFits_nothing

theorem gives_fetchInterchainQueries (hmodule : node.moduleName = "interchainqueries".toList) :
  Gives told (PageFits told node)
    (fetchInterchainQueries rest node.toNodeData pageKey : Rest σ Cmd _)
  := by
  unfold fetchInterchainQueries
  split_ifs with hlength
  · apply gives_pure
    apply pageFits_folders hnode hopens hmodule hlength
      [("registered_queries".toList, plain), ("params".toList, plain)]
    simp [plain]
  · apply gives_listing hnode hopens hlength
    exact fun res => exists_of_mem_listed fun _ => ⟨_, _, _, _, rfl⟩
  · apply gives_fetchParamLeaves hnode hopens hlength
  · apply gives_pure
    apply pageFits_nothing

theorem gives_fetchTokenFactory (hmodule : node.moduleName = "tokenfactory".toList) :
  Gives told (PageFits told node) (fetchTokenFactory rest node.toNodeData : Rest σ Cmd _)
  := by
  unfold fetchTokenFactory
  split_ifs with hlength
  · apply gives_pure
    apply pageFits_folders hnode hopens hmodule hlength
      [("params".toList, plain),
        ("denoms_from_creator".toList, searchFor "Enter creator address (neutron1...)")]
    simp [plain, searchFor]
  · apply gives_fetchParamLeaves hnode hopens hlength
  · apply gives_pure
    apply pageFits_nothing

/-- **Every fetcher gives children that may stand below the node**, and are known. -/
theorem gives_fetchers {chain : Chain} (hchain : chain ∈ chains)
    {fetcher : List Char → NodeData → Option (List Char) →
      Rest σ Cmd (List StateNode × Option (List Char))}
    (h : fetchers node.moduleName = some fetcher) :
  Gives told (PageFits told node) (fetcher chain.rest node.toNodeData pageKey)
  := by
  have hname {s : String} (hs : String.ofList node.moduleName = s) :
      node.moduleName = s.toList := by
    rw [← hs, String.toList_ofList]
  unfold fetchers at h
  split at h
  case h_1 hs =>
      obtain rfl := Option.some.inj h
      apply gives_fetchBank hnode hopens (hname hs) hchain
  case h_2 hs =>
      obtain rfl := Option.some.inj h
      apply gives_fetchStaking hnode hopens (hname hs)
  case h_3 hs =>
      obtain rfl := Option.some.inj h
      apply gives_fetchGov hnode hopens (hname hs)
  case h_4 hs =>
      obtain rfl := Option.some.inj h
      apply gives_fetchIbc hnode hopens (hname hs)
  case h_5 hs =>
      obtain rfl := Option.some.inj h
      apply gives_fetchWasm hnode hopens (hname hs)
  case h_6 hs =>
      obtain rfl := Option.some.inj h
      apply gives_fetchDistribution hnode hopens (hname hs)
  case h_7 hs =>
      obtain rfl := Option.some.inj h
      apply gives_fetchMint hnode hopens (hname hs)
  case h_8 hs =>
      obtain rfl := Option.some.inj h
      apply gives_fetchParams hnode hopens (hname hs)
  case h_9 hs =>
      obtain rfl := Option.some.inj h
      apply gives_fetchParams hnode hopens (hname hs)
  case h_10 hs =>
      obtain rfl := Option.some.inj h
      apply gives_fetchInterchainQueries hnode hopens (hname hs)
  case h_11 hs =>
      obtain rfl := Option.some.inj h
      apply gives_fetchParams hnode hopens (hname hs)
  case h_12 hs =>
      obtain rfl := Option.some.inj h
      apply gives_fetchParams hnode hopens (hname hs)
  case h_13 hs =>
      obtain rfl := Option.some.inj h
      apply gives_fetchTokenFactory hnode hopens (hname hs)
  case h_14 hs =>
      obtain rfl := Option.some.inj h
      apply gives_fetchParams hnode hopens (hname hs)
  case h_15 hs =>
      obtain rfl := Option.some.inj h
      apply gives_fetchParams hnode hopens (hname hs)
  case h_16 => contradiction

end Fetchers

end Explorer
