import InterchainEvents.Platform.Paging

/-!
# Pages that name their next one

A listing that does not change is served in pages. The first page is asked for without a key, and
each page comes with the key of the next one, as long as there is one. Then no two pages have the
same key (`Linked.cursor_inj`), so a key says how far a reader has come.
-/

namespace Paging

variable {κ α : Type}

/-- The pages `0, …, last` of a listing. All but the first have a key. -/
structure Pages (κ α : Type) where
  last : ℕ
  page : ℕ → List α
  key : ℕ → κ

/-- What a page is asked for with. There is nothing to ask for after the last page. -/
def Pages.cursor (p : Pages κ α) (k : ℕ) : Option κ :=
  if 0 < k ∧ k ≤ p.last then some (p.key k) else none

/-- A server gives the page that is asked for, and what the next one is asked for with. -/
def Linked (fetch : Option κ → List α × Option κ) (p : Pages κ α) : Prop :=
  ∀ k ≤ p.last, fetch (p.cursor k) = (p.page k, p.cursor (k + 1))

/-! ### Cursors -/

section Cursor

variable {p : Pages κ α}

theorem Pages.cursor_eq_some {k : ℕ} {c : κ} :
  p.cursor k = some c ↔ (0 < k ∧ k ≤ p.last) ∧ p.key k = c
  := by
  simp [Pages.cursor]

theorem Pages.cursor_eq_none {k : ℕ} :
  p.cursor k = none ↔ ¬ (0 < k ∧ k ≤ p.last)
  := by
  simp [Pages.cursor]

theorem Pages.cursor_zero :
  p.cursor 0 = none
  := Pages.cursor_eq_none.mpr fun h => absurd h.1 (Nat.lt_irrefl 0)

/-- After the last page there is no cursor. -/
theorem Pages.cursor_succ_last :
  p.cursor (p.last + 1) = none
  := Pages.cursor_eq_none.mpr fun h => Nat.not_succ_le_self p.last h.2

variable {fetch : Option κ → List α × Option κ}

/-- Where two cursors agree, so do those after them. -/
theorem Linked.cursor_add (hlinked : Linked fetch p) {j k : ℕ} (h : p.cursor j = p.cursor k)
    (m : ℕ) (hj : j + m ≤ p.last + 1) (hk : k + m ≤ p.last + 1) :
  p.cursor (j + m) = p.cursor (k + m)
  := by
  induction m with
  | zero => apply h
  | succ m ih =>
      have hm := ih (by omega) (by omega)
      have hfetch := hlinked (j + m) (by omega)
      rw [hm, hlinked (k + m) (by omega)] at hfetch
      apply (congrArg Prod.snd hfetch).symm

/-- No two pages have the same key: the pages after them would be the same, and so one of them
would come after the last page. -/
theorem Linked.cursor_inj (hlinked : Linked fetch p) {j k : ℕ} (hj : 0 < j ∧ j ≤ p.last)
    (hk : 0 < k ∧ k ≤ p.last) (h : p.cursor j = p.cursor k) :
  j = k
  := by
  have hnot_lt : ∀ {i l : ℕ}, 0 < i → l ≤ p.last → p.cursor i = p.cursor l → ¬ i < l := by
    intro i l hi hl hcursor hlt
    have hadd := hlinked.cursor_add hcursor (p.last + 1 - l) (by omega) (by omega)
    rw [Nat.add_sub_cancel' (by omega : l ≤ p.last + 1), Pages.cursor_succ_last] at hadd
    apply Pages.cursor_eq_none.mp hadd
    omega
  have hjk := hnot_lt hj.1 hk.2 h
  have hkj := hnot_lt hk.1 hj.2 h.symm
  omega

/-- What a page names as its next one says which page it is. -/
theorem Linked.cursor_succ_inj (hlinked : Linked fetch p) {j k : ℕ} (hj : j ≤ p.last)
    (hk : k ≤ p.last) (h : p.cursor (j + 1) = p.cursor (k + 1)) :
  j = k
  := by
  cases hcursor : p.cursor (k + 1) with
  | some c =>
      have hk' := (Pages.cursor_eq_some.mp hcursor).1
      have hj' := (Pages.cursor_eq_some.mp (h.trans hcursor)).1
      apply Nat.succ.inj (hlinked.cursor_inj hj' hk' h)
  | none =>
      have hk' := Pages.cursor_eq_none.mp hcursor
      have hj' := Pages.cursor_eq_none.mp (h.trans hcursor)
      omega

end Cursor

/-! ### What has been returned -/

theorem length_returned_le (pages : ℕ → List α) {M N : ℕ} (h : M ≤ N) :
  (returned pages M).length ≤ (returned pages N).length
  := by
  induction h with
  | refl => apply Nat.le_refl
  | step _ ih =>
      rw [returned_succ, List.length_append]
      omega

/-- A page that is not empty makes what has been returned longer. -/
theorem length_returned_lt (pages : ℕ → List α) {M N : ℕ} (h : M < N) (hne : pages M ≠ []) :
  (returned pages M).length < (returned pages N).length
  := by
  have hle := length_returned_le pages (Nat.succ_le_of_lt h)
  have hpos := List.length_pos_of_ne_nil hne
  rw [returned_succ, List.length_append] at hle
  omega

/-- If only the first page may be empty, what has been returned says how many pages have been. -/
theorem returned_inj {pages : ℕ → List α} {last M N : ℕ}
    (hne : ∀ k, 0 < k → k ≤ last → pages k ≠ []) (hM : 0 < M ∧ M ≤ last + 1)
    (hN : 0 < N ∧ N ≤ last + 1) (h : returned pages M = returned pages N) :
  M = N
  := by
  have hlength := congrArg List.length h
  rcases Nat.lt_trichotomy M N with hlt | rfl | hlt
  · have := length_returned_lt pages hlt (hne M hM.1 (by omega))
    omega
  · rfl
  · have := length_returned_lt pages hlt (hne N hN.1 (by omega))
    omega

/-! ### Serving a listing -/

/-- A server of a listing looks a key up among those of the pages. For a key that no page has, it
has nothing. -/
def Pages.serve [DecidableEq κ] (p : Pages κ α) (cursor : Option κ) : List α × Option κ :=
  match (List.range (p.last + 1)).find? fun k => decide (p.cursor k = cursor) with
  | some k => (p.page k, p.cursor (k + 1))
  | none => ([], none)

/-- A listing whose pages have different keys can be served. -/
theorem Pages.linked_serve [DecidableEq κ] {p : Pages κ α}
    (hkeys : ∀ j k, 0 < j → j < k → k ≤ p.last → p.key j ≠ p.key k) :
  Linked p.serve p
  := by
  have hinj : ∀ j ≤ p.last, ∀ k ≤ p.last, j < k → p.cursor j ≠ p.cursor k := by
    intro j hj k hk hlt heq
    have hsome : p.cursor k = some (p.key k) := Pages.cursor_eq_some.mpr ⟨⟨by omega, hk⟩, rfl⟩
    obtain ⟨⟨hpos, -⟩, hkey⟩ := Pages.cursor_eq_some.mp (heq.trans hsome)
    exact hkeys j k hpos hlt hk hkey
  intro k hk
  have hfind : (List.range (p.last + 1)).find? (fun j => decide (p.cursor j = p.cursor k))
      = some k := by
    rw [List.find?_range_eq_some]
    refine ⟨decide_eq_true rfl, List.mem_range.mpr (by omega), ?_⟩
    intro j hj
    simpa using hinj j (by omega) k hk hj
  rw [Pages.serve, hfind]

end Paging
