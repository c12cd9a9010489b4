import Mathlib.Data.Finset.Card
import Mathlib.Data.Set.Finite.Basic
import Mathlib.Order.RelClasses

/-!
# Paging through a table that changes

A table is listed in pages, in the order of its keys. Whoever reads it asks for the first page
without a cursor, and for every next one with the key of the last entry of the page before, until
a page is empty. Meanwhile entries may be added and changed, but no key leaves the table.

Then nothing that was in the table at the first query is lost and nothing is repeated, and the
reader comes to an end unless entries are added forever (`exists_walk`).
-/

namespace Paging

variable {κ α : Type}

/-! ### Pages -/

/-- A key comes after a cursor. Without a cursor, all do. -/
def After (r : κ → κ → Prop) (cursor : Option κ) (k : κ) : Prop :=
  ∀ c ∈ cursor, r c k

instance (r : κ → κ → Prop) [DecidableRel r] (cursor : Option κ) (k : κ) :
    Decidable (After r cursor k) :=
  match cursor with
  | none => isTrue (by simp [After])
  | some c => decidable_of_iff (r c k) (by simp [After])

/-- The first `n` entries after a cursor. -/
def page (r : κ → κ → Prop) [DecidableRel r] (key : α → κ) (n : ℕ) (cursor : Option κ)
    (entries : List α) : List α :=
  (entries.filter fun e => decide (After r cursor (key e))).take n

section Page

variable {r : κ → κ → Prop} [DecidableRel r] {key : α → κ} {n : ℕ} {cursor : Option κ}
  {entries : List α}

theorem length_page_le :
  (page r key n cursor entries).length ≤ n
  := List.length_take_le _ _

theorem mem_of_mem_page {e : α} (he : e ∈ page r key n cursor entries) :
  e ∈ entries ∧ After r cursor (key e)
  := by
  have h := List.mem_filter.mp (List.mem_of_mem_take he)
  use h.1
  apply of_decide_eq_true h.2

/-- The keys in a page ascend if those in the table do. -/
theorem pairwise_page (hsorted : (entries.map key).Pairwise r) :
  ((page r key n cursor entries).map key).Pairwise r
  := by
  rw [List.pairwise_map] at hsorted ⊢
  apply (hsorted.filter _).take

/-- What comes after the cursor and is not in the page comes after all that is. -/
theorem mem_page_or_forall (hsorted : (entries.map key).Pairwise r) {e : α} (he : e ∈ entries)
    (hafter : After r cursor (key e)) :
  e ∈ page r key n cursor entries ∨ ∀ x ∈ page r key n cursor entries, r (key x) (key e)
  := by
  have hmem : e ∈ entries.filter fun e => decide (After r cursor (key e)) :=
    List.mem_filter.mpr ⟨he, decide_eq_true hafter⟩
  have hpairwise := (List.pairwise_map.mp hsorted).filter
    fun e => decide (After r cursor (key e))
  rw [← List.take_append_drop n (entries.filter _)] at hmem hpairwise
  obtain ⟨-, -, hacross⟩ := List.pairwise_append.mp hpairwise
  rcases List.mem_append.mp hmem with hmem | hmem
  · exact .inl hmem
  · exact .inr fun x hx => hacross x hx e hmem

/-- A page is empty only if nothing comes after the cursor. -/
theorem not_after_of_page_eq_nil (hn : n ≠ 0) (hnil : page r key n cursor entries = []) {e : α}
    (he : e ∈ entries) :
  ¬ After r cursor (key e)
  := by
  intro hafter
  have hmem : e ∈ entries.filter fun e => decide (After r cursor (key e)) :=
    List.mem_filter.mpr ⟨he, decide_eq_true hafter⟩
  rcases List.take_eq_nil_iff.mp hnil with h | h
  · exact hn h
  · simp [h] at hmem

end Page

/-- What comes after the last entry of a list comes after all of them. -/
theorem lt_of_after_getLast {r : κ → κ → Prop} [IsTrans κ r] {key : α → κ} {l : List α}
    (hsorted : (l.map key).Pairwise r) {x : α} (hx : x ∈ l) {k : κ}
    (hafter : After r (l.getLast?.map key) k) :
  r (key x) k
  := by
  obtain ⟨init, last, rfl⟩ := (List.eq_nil_or_concat' l).resolve_left (List.ne_nil_of_mem hx)
  have hlast : r (key last) k := by
    apply hafter
    simp
  rw [List.pairwise_map, List.pairwise_append] at hsorted
  obtain ⟨-, -, hacross⟩ := hsorted
  rcases List.mem_append.mp hx with hx | hx
  · apply IsTrans.trans _ _ _ (hacross x hx last (List.mem_singleton_self last)) hlast
  · obtain rfl := List.mem_singleton.mp hx
    apply hlast

/-! ### A walk -/

/-- The pages of a walk, the `i`-th being asked for in the `i`-th state of the table: the first
without a cursor, and each next one with the key of the last entry of the page before. -/
def walk (query : ℕ → Option κ → Option (List α)) (key : α → κ) : ℕ → Option (List α)
  | 0 => query 0 none
  | i + 1 => do
      let before ← walk query key i
      query (i + 1) (before.getLast?.map key)

/-- What is in the first `N` pages. -/
def returned (pages : ℕ → List α) (N : ℕ) : List α :=
  (List.range N).flatMap pages

/-- The pages of a walk lose nothing and repeat nothing. `stored i` is what the table has when the
`i`-th page is asked for. -/
structure LosesNothing [DecidableEq κ] (r : κ → κ → Prop) (key : α → κ) (bound : ℕ)
    (stored : ℕ → α → Prop) (pages : ℕ → List α) : Prop where
  length_le : ∀ i, (pages i).length ≤ bound
  /-- What a page has was stored when it was asked for. -/
  of_mem : ∀ i, ∀ e ∈ pages i, stored i e
  /-- Up to the first empty page, the keys ascend, so none is repeated. -/
  ascending : ∀ N, (∀ i < N, pages i ≠ []) → ((returned pages N).map key).Pairwise r
  /-- When a page is empty, every key that there was in the beginning was in the pages before,
  once. -/
  once : ∀ N, (∀ i < N, pages i ≠ []) → pages N = [] →
    ∀ e, stored 0 e → ((returned pages N).map key).count (key e) = 1
  /-- A page is empty some time, if finitely many keys are ever stored. -/
  ends : {k | ∃ i e, stored i e ∧ key e = k}.Finite →
    ∃ N, (∀ i < N, pages i ≠ []) ∧ pages N = []

theorem returned_succ (pages : ℕ → List α) (N : ℕ) :
  returned pages (N + 1) = returned pages N ++ pages N
  := by
  simp [returned, List.range_succ]

/-- The cursor that the `i`-th page is asked for with. -/
def cursorAt (key : α → κ) (pages : ℕ → List α) : ℕ → Option κ
  | 0 => none
  | i + 1 => (pages i).getLast?.map key

section Walk

variable {r : κ → κ → Prop} {key : α → κ} {n : ℕ} {entries pages : ℕ → List α}

/-- When every query answers with a page, the pages of the walk are these. -/
theorem exists_pages [DecidableRel r] {query : ℕ → Option κ → Option (List α)}
    (hquery : ∀ i cursor, query i cursor = some (page r key n cursor (entries i))) :
  ∃ pages : ℕ → List α, (∀ i, walk query key i = some (pages i)) ∧
    ∀ i, pages i = page r key n (cursorAt key pages i) (entries i)
  := by
  have hsome : ∀ i, ∃ p, walk query key i = some p := by
    intro i
    induction i with
    | zero => exact ⟨_, hquery 0 none⟩
    | succ i ih =>
        obtain ⟨p, hp⟩ := ih
        use page r key n (p.getLast?.map key) (entries (i + 1))
        rw [walk, hp]
        apply hquery
  choose pages hpages using hsome
  use pages, hpages
  intro i
  apply Option.some.inj
  rw [← hpages, ← hquery]
  cases i with
  | zero => rfl
  | succ i => simp [walk, hpages, cursorAt]

/-- What is so after the first `N` pages, none of them being empty. -/
structure Progress (r : κ → κ → Prop) (key : α → κ) (entries pages : ℕ → List α) (N : ℕ) :
    Prop where
  ascending : ((returned pages N).map key).Pairwise r
  below : ∀ x ∈ returned pages N, ∀ k, After r (cursorAt key pages N) k → r (key x) k
  covered : ∀ e ∈ entries 0,
    key e ∈ (returned pages N).map key ∨ After r (cursorAt key pages N) (key e)

/-- A key that is in the table stays in it. -/
theorem exists_key_eq (hkept : ∀ i, ∀ e ∈ entries i, ∃ e' ∈ entries (i + 1), key e' = key e)
    (i : ℕ) {e : α} (he : e ∈ entries 0) :
  ∃ e' ∈ entries i, key e' = key e
  := by
  induction i with
  | zero => exact ⟨e, he, rfl⟩
  | succ i ih =>
      obtain ⟨x, hx, hkey⟩ := ih
      obtain ⟨y, hy, hkey'⟩ := hkept i x hx
      exact ⟨y, hy, hkey'.trans hkey⟩

theorem progress_zero :
  Progress r key entries pages 0
  where
  ascending := by simp [returned]
  below := by simp [returned]
  covered e _ := by
    right
    intro c hc
    cases hc

/-- A page that is not empty makes progress. -/
theorem Progress.succ [DecidableRel r] [IsTrans κ r] {N : ℕ}
    (h : Progress r key entries pages N)
    (hpage : pages N = page r key n (cursorAt key pages N) (entries N))
    (hsorted : ((entries N).map key).Pairwise r)
    (hkept : ∀ e ∈ entries 0, ∃ e' ∈ entries N, key e' = key e) (hne : pages N ≠ []) :
  Progress r key entries pages (N + 1)
  := by
  have hafter : ∀ x ∈ pages N, After r (cursorAt key pages N) (key x) := by
    intro x hx
    rw [hpage] at hx
    apply (mem_of_mem_page hx).2
  have hascending : ((pages N).map key).Pairwise r := by
    rw [hpage]
    apply pairwise_page hsorted
  obtain ⟨last, hlast⟩ : ∃ last, (pages N).getLast? = some last :=
    ⟨_, List.getLast?_eq_some_getLast hne⟩
  have hlast_mem : last ∈ pages N := List.mem_of_getLast? hlast
  constructor
  case ascending =>
    rw [returned_succ, List.map_append, List.pairwise_append]
    refine ⟨h.ascending, hascending, ?_⟩
    intro a ha b hb
    obtain ⟨x, hx, rfl⟩ := List.mem_map.mp ha
    obtain ⟨y, hy, rfl⟩ := List.mem_map.mp hb
    apply h.below x hx _ (hafter y hy)
  case below =>
    intro x hx k hk
    rw [returned_succ] at hx
    rcases List.mem_append.mp hx with hx | hx
    · -- the last entry of the page comes after `x`, and `k` after that
      have hlast_lt : r (key last) k := lt_of_after_getLast hascending hlast_mem hk
      apply IsTrans.trans _ _ _ (h.below x hx _ (hafter last hlast_mem)) hlast_lt
    · apply lt_of_after_getLast hascending hx hk
  case covered =>
    intro e he
    rw [returned_succ, List.map_append, List.mem_append]
    rcases h.covered e he with hmem | hmem
    · exact .inl (.inl hmem)
    · obtain ⟨e', he', hkey⟩ := hkept e he
      rw [← hkey] at hmem ⊢
      rcases mem_page_or_forall hsorted he' hmem (n := n) with hin | hbeyond
      · rw [← hpage] at hin
        exact .inl (.inr (List.mem_map_of_mem hin))
      · rw [← hpage] at hbeyond
        right
        intro c hc
        simp only [cursorAt, hlast, Option.map_some, Option.mem_some_iff] at hc
        rw [← hc]
        apply hbeyond last hlast_mem

theorem progress [DecidableRel r] [IsTrans κ r]
    (hpages : ∀ i, pages i = page r key n (cursorAt key pages i) (entries i))
    (hsorted : ∀ i, ((entries i).map key).Pairwise r)
    (hkept : ∀ i, ∀ e ∈ entries i, ∃ e' ∈ entries (i + 1), key e' = key e) {N : ℕ}
    (hne : ∀ i < N, pages i ≠ []) :
  Progress r key entries pages N
  := by
  induction N with
  | zero => apply progress_zero
  | succ N ih =>
      have hN := ih fun i hi => hne i (Nat.lt_succ_of_lt hi)
      apply hN.succ (hpages N) (hsorted N) (fun e he => exists_key_eq hkept N he)
        (hne N (Nat.lt_succ_self N))

/-- A walk in which no page is empty meets more and more keys. -/
theorem le_length_returned {N : ℕ} (hne : ∀ i < N, pages i ≠ []) :
  N ≤ (returned pages N).length
  := by
  induction N with
  | zero => apply Nat.zero_le
  | succ N ih =>
      rw [returned_succ, List.length_append]
      have hN := ih fun i hi => hne i (Nat.lt_succ_of_lt hi)
      have hpage := List.length_pos_of_ne_nil (hne N (Nat.lt_succ_self N))
      omega

theorem exists_page_eq_nil [DecidableEq κ] [Std.Irrefl r]
    (hascending : ∀ N, (∀ i < N, pages i ≠ []) → ((returned pages N).map key).Pairwise r)
    {s : Set κ} (hs : s.Finite) (hmem : ∀ i, ∀ e ∈ pages i, key e ∈ s) :
  ∃ N, (∀ i < N, pages i ≠ []) ∧ pages N = []
  := by
  have hnil : ∃ N, pages N = [] := by
    by_contra hnot
    push Not at hnot
    -- one page more than there are keys
    have hN := le_length_returned (N := hs.toFinset.card + 1) fun i _ => hnot i
    have hnodup : ((returned pages (hs.toFinset.card + 1)).map key).Nodup := by
      apply (hascending _ fun i _ => hnot i).imp
      rintro a b hab rfl
      exact Std.Irrefl.irrefl a hab
    have hsub : ((returned pages (hs.toFinset.card + 1)).map key).toFinset ⊆ hs.toFinset := by
      intro k hk
      obtain ⟨e, he, rfl⟩ := List.mem_map.mp (List.mem_toFinset.mp hk)
      obtain ⟨i, -, hi⟩ := List.mem_flatMap.mp he
      rw [Set.Finite.mem_toFinset]
      apply hmem i e hi
    have hcard := Finset.card_le_card hsub
    rw [List.toFinset_card_of_nodup hnodup, List.length_map] at hcard
    omega
  classical
  use Nat.find hnil
  exact ⟨fun i hi => Nat.find_min hnil hi, Nat.find_spec hnil⟩

/-- **Paging loses and repeats nothing.** Let every query answer with a page of the table in its
present state, the keys ascending in each state and none ever leaving the table. -/
theorem exists_walk [DecidableEq κ] [DecidableRel r] [IsStrictOrder κ r]
    {query : ℕ → Option κ → Option (List α)}
    (hquery : ∀ i cursor, query i cursor = some (page r key n cursor (entries i))) (hn : n ≠ 0)
    (hsorted : ∀ i, ((entries i).map key).Pairwise r)
    (hkept : ∀ i, ∀ e ∈ entries i, ∃ e' ∈ entries (i + 1), key e' = key e)
    {stored : ℕ → α → Prop} (hstored : ∀ i e, stored i e ↔ e ∈ entries i) :
  ∃ pages : ℕ → List α, (∀ i, walk query key i = some (pages i)) ∧
    LosesNothing r key n stored pages
  := by
  obtain ⟨pages, hwalk, hpages⟩ := exists_pages hquery
  have hmem : ∀ i, ∀ e ∈ pages i, e ∈ entries i := by
    intro i e he
    rw [hpages] at he
    apply (mem_of_mem_page he).1
  use pages, hwalk
  constructor
  · intro i
    rw [hpages]
    apply length_page_le
  · intro i e he
    apply (hstored i e).mpr (hmem i e he)
  · intro N hne
    apply (progress hpages hsorted hkept hne).ascending
  · intro N hne hnil e he
    obtain ⟨hascending, -, hcovered⟩ := progress hpages hsorted hkept hne
    have hnodup : ((returned pages N).map key).Nodup := by
      apply hascending.imp
      rintro a b hab rfl
      exact Std.Irrefl.irrefl a hab
    apply List.count_eq_one_of_mem hnodup
    have he₀ := (hstored 0 e).mp he
    apply (hcovered e he₀).resolve_right
    obtain ⟨e', he', hkey⟩ := exists_key_eq hkept N he₀
    rw [← hkey]
    rw [hpages] at hnil
    apply not_after_of_page_eq_nil hn hnil he'
  · intro hfinite
    apply exists_page_eq_nil (fun N hne => (progress hpages hsorted hkept hne).ascending) hfinite
    intro i e he
    exact ⟨i, e, (hstored i e).mpr (hmem i e he), rfl⟩

end Walk

end Paging
