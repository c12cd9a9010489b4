import InterchainEvents.Async.Tasks

/-!
# Invariants of the shared state

What each command of a program keeps of the shared state holds in every state of a run, as long as
the programs rely on no more of the others than what these keep too. `Respects` is the logic of a
program that keeps an invariant `I` and changes the state only by steps of `R`, and relies on that
while it waits, and on `A` of the answers it gets; it is computed along the program and composes
with it. If all programs that begin are such, the invariant holds throughout (`Respects.run`).
-/

namespace Async

open Machine

variable {σ Cmd Err Req : Type} {Resp : Req → Type} {α β : Type}

section Logic

variable (apply : Cmd → σ → σ) (I : σ → Prop) (R : σ → σ → Prop)
  (A : (req : Req) → Except Err (Resp req) → Prop)

/-- Begun on a shared state, each command of the program keeps `I` and is a step of `R`, and the
program ends with `Q` or, with an exception, `E`. While it waits, others keep `I` and make steps of
`R`, and the answer is one of `A`. -/
def Respects (Q : α → σ → Prop) (E : Err → σ → Prop) : Async σ Cmd Err Resp α → σ → Prop
  | .done a, s => Q a s
  | .fail e, s => E e s
  | .act c next, s => (I (apply c s) ∧ R s (apply c s)) ∧ Respects Q E next (apply c s)
  | .read next, s => Respects Q E (next s) s
  | .wait req next, s => ∀ answer s', A req answer → I s' → R s s' → Respects Q E (next answer) s'

variable {apply I R A} {Q Q' : α → σ → Prop} {E E' : Err → σ → Prop} {s : σ}

/-- What holds in the end may be weakened. -/
theorem Respects.mono {p : Async σ Cmd Err Resp α} (hp : Respects apply I R A Q E p s)
    (hQ : ∀ a s, Q a s → Q' a s) (hE : ∀ e s, E e s → E' e s) :
  Respects apply I R A Q' E' p s
  := by
  induction p generalizing s with
  | done a => apply hQ a s hp
  | fail e => apply hE e s hp
  | act c next ih => exact ⟨hp.1, ih hp.2⟩
  | read next ih => apply ih s hp
  | wait req next ih => exact fun answer s' hA hI hR => ih answer (hp answer s' hA hI hR)

/-- What is kept throughout holds in the end. -/
theorem Respects.keeps (hrefl : ∀ s, R s s) (htrans : ∀ s s' s'', R s s' → R s' s'' → R s s'')
    {p : Async σ Cmd Err Resp α} (hp : Respects apply I R A Q E p s) (hI : I s) :
  Respects apply I R A (fun a s' => Q a s' ∧ I s' ∧ R s s') (fun e s' => E e s' ∧ I s' ∧ R s s') p s
  := by
  suffices hall : ∀ s', I s' → R s s' → Respects apply I R A Q E p s' →
      Respects apply I R A (fun a s' => Q a s' ∧ I s' ∧ R s s')
        (fun e s' => E e s' ∧ I s' ∧ R s s') p s' from hall s hI (hrefl s) hp
  clear hp hI
  intro s' hI hR hp
  induction p generalizing s' with
  | done a => exact ⟨hp, hI, hR⟩
  | fail e => exact ⟨hp, hI, hR⟩
  | act c next ih => exact ⟨hp.1, ih _ hp.1.1 (htrans _ _ _ hR hp.1.2) hp.2⟩
  | read next ih => apply ih s' s' hI hR hp
  | wait req next ih =>
      exact fun answer s'' hA hI' hR' =>
        ih answer s'' hI' (htrans _ _ _ hR hR') (hp answer s'' hA hI' hR')

theorem respects_bind {Q : β → σ → Prop} {p : Async σ Cmd Err Resp α}
    {f : α → Async σ Cmd Err Resp β} :
  Respects apply I R A Q E (p >>= f) s
    ↔ Respects apply I R A (fun a s => Respects apply I R A Q E (f a) s) E p s
  := by
  show Respects apply I R A Q E (bind p f) s ↔ _
  induction p generalizing s with
  | done a => exact Iff.rfl
  | fail e => exact Iff.rfl
  | act c next ih => simp only [bind, Respects, ih]
  | read next ih => simp only [bind, Respects, ih]
  | wait req next ih => simp only [bind, Respects, ih]

theorem respects_handle {p : Async σ Cmd Err Resp α} {f : Err → Async σ Cmd Err Resp α} :
  Respects apply I R A Q E (p.handle f) s
    ↔ Respects apply I R A Q (fun e s => Respects apply I R A Q E (f e) s) p s
  := by
  induction p generalizing s with
  | done a => exact Iff.rfl
  | fail e => exact Iff.rfl
  | act c next ih => simp only [handle, Respects, ih]
  | read next ih => simp only [handle, Respects, ih]
  | wait req next ih => simp only [handle, Respects, ih]

theorem respects_shared {Q : σ → σ → Prop} :
  Respects apply I R A Q E (shared : Async σ Cmd Err Resp σ) s ↔ Q s s
  := Iff.rfl

theorem respects_request {req : Req} {Q : Resp req → σ → Prop} :
  Respects apply I R A Q E (request req : Async σ Cmd Err Resp (Resp req)) s
    ↔ ∀ s', I s' → R s s' → (∀ a, A req (.ok a) → Q a s') ∧ ∀ e, A req (.error e) → E e s'
  := by
  constructor
  · intro h s' hI hR
    exact ⟨fun a hA => h (.ok a) s' hA hI hR, fun e hA => h (.error e) s' hA hI hR⟩
  · rintro h (e | a) s' hA hI hR
    · apply (h s' hI hR).2 e hA
    · apply (h s' hI hR).1 a hA

/-! ### Runs -/

/-- Up to where a program waits or ends, it keeps the invariant. -/
theorem Respects.advance (hrefl : ∀ s, R s s)
    (htrans : ∀ s s' s'', R s s' → R s' s'' → R s s'') {p : Async σ Cmd Err Resp α}
    (hp : Respects apply I R A Q E p s) (hI : I s) :
  I (p.advance apply s).2.1 ∧ R s (p.advance apply s).2.1 ∧
    Respects apply I R A Q E (p.advance apply s).1 (p.advance apply s).2.1
  := by
  induction p generalizing s with
  | done a => exact ⟨hI, hrefl s, hp⟩
  | fail e => exact ⟨hI, hrefl s, hp⟩
  | act c next ih =>
      obtain ⟨⟨hI', hR⟩, hnext⟩ := hp
      obtain ⟨hI'', hR', hq⟩ := ih hnext hI'
      exact ⟨hI'', htrans _ _ _ hR hR', hq⟩
  | read next ih => apply ih s hp hI
  | wait req next _ => exact ⟨hI, hrefl s, hp⟩

/-- A program that waits respects whatever others have done meanwhile. -/
theorem Respects.later (htrans : ∀ s s' s'', R s s' → R s' s'' → R s s'') {req : Req}
    {next : Except Err (Resp req) → Async σ Cmd Err Resp α} {s' : σ}
    (hp : Respects apply I R A Q E (.wait req next) s) (hR : R s s') :
  Respects apply I R A Q E (.wait req next) s'
  := fun answer _ hA hI' hR' => hp answer _ hA hI' (htrans _ _ _ hR hR')

/-- The tasks that wait respect what is shared. -/
def Waiting (apply : Cmd → σ → σ) (I : σ → Prop) (R : σ → σ → Prop)
    (A : (req : Req) → Except Err (Resp req) → Prop) (s : System σ Cmd Err Resp) : Prop :=
  ∀ (task : ℕ) req next, s.tasks[task]? = some (.wait req next) →
    Respects apply I R A (fun _ _ => True) (fun _ _ => True) (.wait req next) s.state

/-- A task that runs up to where it waits or ends keeps the invariant, for itself and for the
others. -/
theorem Waiting.advance {s s' : System σ Cmd Err Resp} (hs : Waiting apply I R A s)
    (hrefl : ∀ s, R s s) (htrans : ∀ s s' s'', R s s' → R s' s'' → R s s'')
    {p : Async σ Cmd Err Resp Unit} (hI : I s.state)
    (hp : Respects apply I R A (fun _ _ => True) (fun _ _ => True) p s.state)
    (hstate : s'.state = (p.advance apply s.state).2.1)
    (htasks : ∀ (task : ℕ) q, s'.tasks[task]? = some q →
      s.tasks[task]? = some q ∨ q = (p.advance apply s.state).1) :
  I s'.state ∧ R s.state s'.state ∧ Waiting apply I R A s'
  := by
  obtain ⟨hI', hR, hq⟩ := hp.advance hrefl htrans hI
  rw [← hstate] at hI' hR hq
  use hI', hR
  intro task req next htask
  rcases htasks task _ htask with hold | hnew
  · apply (hs task req next hold).later htrans hR
  · rw [hnew]
    apply hq

/-- **Invariants of a run**: if all programs that begin respect the invariant, and all answers are
such as they rely on, the invariant holds. -/
theorem Respects.run (hrefl : ∀ s, R s s) (htrans : ∀ s s' s'', R s s' → R s' s'' → R s s'')
    {s₀ : σ} {s : System σ Cmd Err Resp}
    {h : List (System σ Cmd Err Resp × Action σ Cmd Err Resp)}
    (hrun : Run (step apply) (.initial s₀) h s) (hI : I s₀)
    (hprograms : ∀ p ∈ programs h, ∀ s, I s →
      Respects apply I R A (fun _ _ => True) (fun _ _ => True) p s)
    (hanswers : ∀ task req answer, (task, .got req answer) ∈ trace apply h → A req answer) :
  I s.state ∧ R s₀ s.state
  := by
  suffices hall : I s.state ∧ R s₀ s.state ∧ Waiting apply I R A s from ⟨hall.1, hall.2.1⟩
  induction hrun with
  | start =>
      use hI, hrefl s₀
      intro task req next htask
      simp [System.initial] at htask
  | @step h s a s' hrun hs' ih =>
      obtain ⟨hIs, hRs, hwaiting⟩ := ih
        (fun p hp => hprograms p (by
          rw [programs, List.filterMap_append]
          apply List.mem_append_left _ hp))
        (fun task req answer hgot => hanswers task req answer (by
          rw [trace_concat]
          apply List.mem_append_left _ hgot))
      rcases step_cases hs' with ⟨p, rfl, hstate, htasks, -⟩ |
        ⟨task, answer, req, next, rfl, htask, hstate, htasks, hobserved⟩
      · have hp := hprograms p (by simp [programs, Action.spawned]) s.state hIs
        obtain ⟨hI', hR', hwaiting'⟩ := hwaiting.advance hrefl htrans hIs hp hstate (by
          intro task q hq
          rw [htasks] at hq
          by_cases hlt : task < s.tasks.length
          · rw [List.getElem?_append_left hlt] at hq
            exact .inl hq
          · rw [List.getElem?_append_right (by omega)] at hq
            exact .inr (List.mem_singleton.mp (List.mem_of_getElem? hq)))
        exact ⟨hI', htrans _ _ _ hRs hR', hwaiting'⟩
      · have hgot : A req (answer req) := by
          apply hanswers task
          rw [trace_concat, hobserved]
          apply List.mem_append_right
          simp
        have hp := hwaiting task req next htask (answer req) s.state hgot hIs (hrefl s.state)
        obtain ⟨hI', hR', hwaiting'⟩ := hwaiting.advance hrefl htrans hIs hp hstate (by
          intro task' q hq
          rw [htasks] at hq
          by_cases hsame : task = task'
          · subst hsame
            rw [List.getElem?_set_self (List.getElem?_eq_some_iff.mp htask).1] at hq
            exact .inr (Option.some.inj hq).symm
          · rw [List.getElem?_set_ne hsame] at hq
            exact .inl hq)
        exact ⟨hI', htrans _ _ _ hRs hR', hwaiting'⟩

end Logic

end Async
