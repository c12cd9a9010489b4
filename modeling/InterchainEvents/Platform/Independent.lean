import Mathlib.Data.List.Pairwise

/-!
# Independent steps

Two steps on a state are independent when they commute and neither changes the answer of the
other. A list of pairwise independent steps may be taken in any order: the state reached is the
same, and each step gives the answer it gives when it is taken alone.
-/

namespace Platform

variable {σ μ ρ : Type} (step : μ → σ → σ) (answer : μ → σ → ρ)

/-- The state after all steps of a list. -/
def stepAll (ms : List μ) (s : σ) : σ :=
  ms.foldl (fun s m => step m s) s

/-- The steps of a list, each with its answer. -/
def answers : List μ → σ → List (μ × ρ)
  | [], _ => []
  | m :: ms, s => (m, answer m s) :: answers ms (step m s)

/-- The steps commute, and neither changes the answer of the other. -/
structure Independent (m m' : μ) : Prop where
  commute : ∀ s, step m (step m' s) = step m' (step m s)
  unseen : ∀ s, answer m (step m' s) = answer m s
  unseen' : ∀ s, answer m' (step m s) = answer m' s

variable {step answer} {ms ms' : List μ}

theorem Independent.symm {m m' : μ} (h : Independent step answer m m') :
  Independent step answer m' m
  where
  commute s := (h.commute s).symm
  unseen := h.unseen'
  unseen' := h.unseen

instance : Std.Symm (Independent step answer) where
  symm _ _ h := h.symm

/-- Among independent steps each gives the answer it gives when it is taken alone. -/
theorem answers_eq_map (h : ms.Pairwise (Independent step answer)) (s : σ) :
  answers step answer ms s = ms.map fun m => (m, answer m s)
  := by
  induction ms generalizing s with
  | nil => rfl
  | cons m ms ih =>
      obtain ⟨hm, hms⟩ := List.pairwise_cons.mp h
      have hunseen : ∀ m' ∈ ms, (m', answer m' (step m s)) = (m', answer m' s) := by
        intro m' hm'
        rw [(hm m' hm').unseen']
      rw [answers, ih hms, List.map_cons, List.map_congr_left hunseen]

/-- Independent steps lead to the same state in any order. -/
theorem stepAll_perm (hperm : ms.Perm ms') (h : ms.Pairwise (Independent step answer)) (s : σ) :
  stepAll step ms s = stepAll step ms' s
  := by
  apply hperm.foldl_eq'
  intro m hm m' hm' s
  by_cases hne : m = m'
  · rw [hne]
  · apply ((h.forall hm hm' hne).commute s).symm

/-- Independent steps give the same answers in any order. -/
theorem answers_perm (hperm : ms.Perm ms') (h : ms.Pairwise (Independent step answer)) (s : σ) :
  (answers step answer ms s).Perm (answers step answer ms' s)
  := by
  rw [answers_eq_map h, answers_eq_map (hperm.pairwise h fun h => h.symm)]
  apply hperm.map

end Platform
