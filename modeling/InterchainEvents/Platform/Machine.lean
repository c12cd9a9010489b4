import Mathlib.Data.List.Basic

/-!
# Runs of a machine

A machine is given by what each action does in each state, or that it is not possible there. A run
is recorded with the state before each of its steps. `Run.invariant` is the induction principle:
what holds in the beginning and is kept by the steps of a kind holds throughout the runs that
consist of such steps.
-/

namespace Machine

variable {σ α : Type} {step : σ → α → Option σ}

variable (step) in
/-- The runs from a state: the steps taken, each with the state before it, and the state
reached. -/
inductive Run (s₀ : σ) : List (σ × α) → σ → Prop
  | start : Run s₀ [] s₀
  | step {h s a s'} : Run s₀ h s → step s a = some s' → Run s₀ (h ++ [(s, a)]) s'

/-- All states of a run. -/
def states (h : List (σ × α)) (s : σ) : List σ :=
  h.map Prod.fst ++ [s]

theorem mem_states_last (h : List (σ × α)) (s : σ) :
  s ∈ states h s
  := List.mem_append_right _ (List.mem_singleton_self s)

theorem mem_states_of_mem {h : List (σ × α)} {e : σ × α} (he : e ∈ h) (s : σ) :
  e.1 ∈ states h s
  := List.mem_append_left _ (List.mem_map_of_mem he)

/-- The states of a run with one more step. -/
theorem mem_states_concat {h : List (σ × α)} {s s' x : σ} {a : α} :
  x ∈ states (h ++ [(s, a)]) s' ↔ x ∈ states h s ∨ x = s'
  := by
  simp [states, or_assoc]

/-- What is kept by the steps of a kind holds in all states of a run of such steps. -/
theorem Run.invariant {I : σ → Prop} {G : σ → α → Prop} {s₀ s : σ} {h : List (σ × α)}
    (hrun : Run step s₀ h s) (hstart : I s₀)
    (hstep : ∀ {s a s'}, I s → G s a → step s a = some s' → I s')
    (hG : ∀ e ∈ h, G e.1 e.2) :
  ∀ x ∈ states h s, I x
  := by
  induction hrun with
  | start =>
      intro x hx
      obtain rfl := List.mem_singleton.mp hx
      apply hstart
  | @step h s a s' hrun hs' ih =>
      have hI := ih fun e he => hG e (List.mem_append_left _ he)
      intro x hx
      rcases mem_states_concat.mp hx with hx | rfl
      · apply hI x hx
      · apply hstep (hI s (mem_states_last h s)) _ hs'
        apply hG (s, a) (List.mem_append_right _ (List.mem_singleton_self _))

/-- The state after a step of a run is one of its states. -/
theorem Run.next {s₀ s : σ} {h : List (σ × α)} (hrun : Run step s₀ h s) {e : σ × α} (he : e ∈ h) :
  ∃ s' ∈ states h s, step e.1 e.2 = some s'
  := by
  induction hrun with
  | start => simp at he
  | @step h s a s' hrun hs' ih =>
      rcases List.mem_append.mp he with he | he
      · obtain ⟨x, hx, hnext⟩ := ih he
        use x, mem_states_concat.mpr (.inl hx), hnext
      · obtain rfl := List.mem_singleton.mp he
        use s', mem_states_last _ s', hs'

/-- The last step of a run leads to the state it reaches. -/
theorem Run.last {s₀ s s' : σ} {h : List (σ × α)} {a : α}
    (hrun : Run step s₀ (h ++ [(s, a)]) s') :
  step s a = some s'
  := by
  generalize hall : h ++ [(s, a)] = all at hrun
  cases hrun with
  | start => simp at hall
  | step hrun hs' =>
      obtain ⟨-, he⟩ := List.append_inj' hall rfl
      obtain ⟨rfl, rfl⟩ := Prod.mk.inj (List.singleton_inj.mp he)
      apply hs'

/-- A run can be cut in two. -/
theorem Run.split {s₀ s : σ} {h h' : List (σ × α)} (hrun : Run step s₀ (h ++ h') s) :
  ∃ s', Run step s₀ h s' ∧ Run step s' h' s
  := by
  generalize hall : h ++ h' = all at hrun
  induction hrun generalizing h' with
  | start =>
      obtain ⟨rfl, rfl⟩ := List.append_eq_nil_iff.mp hall
      use s₀, .start, .start
  | @step k s a s' hrun hs' ih =>
      rcases List.eq_nil_or_concat' h' with rfl | ⟨l, e, rfl⟩
      · rw [List.append_nil] at hall
        obtain rfl := hall
        use s', hrun.step hs', .start
      · rw [← List.append_assoc] at hall
        obtain ⟨hl, he⟩ := List.append_inj' hall rfl
        obtain rfl := List.singleton_inj.mp he
        obtain ⟨x, hx, hrest⟩ := ih hl
        use x, hx, hrest.step hs'

/-! ### Runs by their actions -/

variable (step) in
/-- The run of some actions, if each is possible when its turn comes. -/
def exec (s : σ) : List α → Option (List (σ × α) × σ)
  | [] => some ([], s)
  | a :: as => do
      let s' ← step s a
      let (h, t) ← exec s' as
      some ((s, a) :: h, t)

/-- The actions of a run are those it was made of. -/
theorem actions_of_exec {s t : σ} {l : List α} {h : List (σ × α)}
    (hexec : exec step s l = some (h, t)) :
  h.map Prod.snd = l
  := by
  induction l generalizing s h with
  | nil =>
      obtain ⟨rfl, -⟩ := Prod.mk.inj (Option.some.inj hexec)
      rfl
  | cons a l ih =>
      obtain ⟨s', -, hexec⟩ := Option.bind_eq_some_iff.mp hexec
      obtain ⟨⟨h', t'⟩, hrest, heq⟩ := Option.bind_eq_some_iff.mp hexec
      obtain ⟨rfl, rfl⟩ := Prod.mk.inj (Option.some.inj heq)
      rw [List.map_cons, ih hrest]

theorem Run.cons {s s' t : σ} {a : α} {h : List (σ × α)} (hs' : step s a = some s')
    (hrun : Run step s' h t) :
  Run step s ((s, a) :: h) t
  := by
  induction hrun with
  | start => apply Run.start.step hs'
  | step _ hnext ih => apply ih.step hnext

theorem run_of_exec {s t : σ} {l : List α} {h : List (σ × α)}
    (hexec : exec step s l = some (h, t)) :
  Run step s h t
  := by
  induction l generalizing s h with
  | nil =>
      obtain ⟨rfl, rfl⟩ := Prod.mk.inj (Option.some.inj hexec)
      apply Run.start
  | cons a l ih =>
      obtain ⟨s', hs', hexec⟩ := Option.bind_eq_some_iff.mp hexec
      obtain ⟨⟨h', t'⟩, hrest, heq⟩ := Option.bind_eq_some_iff.mp hexec
      obtain ⟨rfl, rfl⟩ := Prod.mk.inj (Option.some.inj heq)
      apply Run.cons hs' (ih hrest)

end Machine
