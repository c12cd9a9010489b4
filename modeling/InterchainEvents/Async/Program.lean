import Mathlib.Data.List.Basic

/-!
# Asynchronous programs

A program of an event loop acts on a state that it shares with others, reads it, and from time to
time waits for the answer to a request, which may be an error. Between two waits it runs without
interruption. What can be observed of it is the list of what it did, saw, asked for and got
(`Observation`); `After` says where a program is after which observations.

`Upholds` is the logic of such programs: that every list of observations has a property as it
grows, with what holds in the end. It is computed along the program and composes with it
(`upholds_bind`, `upholds_handle`, `upholds_forEach`, `upholds_retry`), and it says what it should
of all observations that the program allows (`Upholds.after`).
-/

/-- A program: it is done or has failed, or acts by a command, reads the shared state, or waits for
the answer to a request. -/
inductive Async (σ Cmd Err : Type) {Req : Type} (Resp : Req → Type) (α : Type) where
  | done (a : α)
  | fail (e : Err)
  | act (c : Cmd) (next : Async σ Cmd Err Resp α)
  | read (next : σ → Async σ Cmd Err Resp α)
  | wait (req : Req) (next : Except Err (Resp req) → Async σ Cmd Err Resp α)

namespace Async

variable {σ Cmd Err Req : Type} {Resp : Req → Type} {α β : Type}

/-! ### Composition -/

/-- One program after another. -/
def bind : Async σ Cmd Err Resp α → (α → Async σ Cmd Err Resp β) → Async σ Cmd Err Resp β
  | .done a, f => f a
  | .fail e, _ => .fail e
  | .act c next, f => .act c (bind next f)
  | .read next, f => .read fun s => bind (next s) f
  | .wait req next, f => .wait req fun answer => bind (next answer) f

/-- `try p catch e => f e` -/
def handle : Async σ Cmd Err Resp α → (Err → Async σ Cmd Err Resp α) → Async σ Cmd Err Resp α
  | .done a, _ => .done a
  | .fail e, f => f e
  | .act c next, f => .act c (handle next f)
  | .read next, f => .read fun s => handle (next s) f
  | .wait req next, f => .wait req fun answer => handle (next answer) f

instance : Monad (Async σ Cmd Err Resp) where
  pure := .done
  bind := bind

instance : MonadExceptOf Err (Async σ Cmd Err Resp) where
  throw := .fail
  tryCatch := handle

/-- Act by a command. -/
def perform (c : Cmd) : Async σ Cmd Err Resp Unit := .act c (.done ())

/-- The shared state. -/
def shared : Async σ Cmd Err Resp σ := .read .done

/-- Wait for the answer to a request, and throw it if it is an error. -/
def request (req : Req) : Async σ Cmd Err Resp (Resp req) :=
  .wait req fun
    | .ok a => .done a
    | .error e => .fail e

/-- A result, or an exception. -/
def fromExcept : Except Err α → Async σ Cmd Err Resp α
  | .ok a => .done a
  | .error e => .fail e

/-- `for (const x of xs) await f(x)` -/
def forEach : List α → (α → Async σ Cmd Err Resp Unit) → Async σ Cmd Err Resp Unit
  | [], _ => .done ()
  | x :: xs, f => bind (f x) fun _ => forEach xs f

/-- Ask until there is an answer, so many times at most, and pause after each time without one. -/
def retry (ask : Async σ Cmd Err Resp (Option α)) (pause : Async σ Cmd Err Resp Unit)
    (giveUp : Async σ Cmd Err Resp α) : (attempts : ℕ) → Async σ Cmd Err Resp α
  | 0 => giveUp
  | attempts + 1 => bind ask fun
      | some a => .done a
      | none => bind pause fun _ => retry ask pause giveUp attempts

/-- A program that gives nothing is done. -/
def isDone : Async σ Cmd Err Resp Unit → Bool
  | .done _ => true
  | _ => false

theorem eq_done_of_isDone {p : Async σ Cmd Err Resp Unit} (h : p.isDone = true) :
  p = .done ()
  := by
  cases p with
  | done a => rfl
  | _ => cases h

/-! ### Observations -/

/-- What can be observed of a program. -/
inductive Observation (σ Cmd Err : Type) {Req : Type} (Resp : Req → Type) where
  | did (c : Cmd)
  | saw (s : σ)
  | asked (req : Req)
  | got (req : Req) (answer : Except Err (Resp req))

/-- The program is where `q` is after these observations, begun on a shared state, and cannot go on
by itself. While it waits, others may have changed the shared state. -/
inductive After (apply : Cmd → σ → σ) : Async σ Cmd Err Resp α → σ →
    List (Observation σ Cmd Err Resp) → Async σ Cmd Err Resp α → Prop
  | done (a : α) (s : σ) : After apply (.done a) s [] (.done a)
  | fail (e : Err) (s : σ) : After apply (.fail e) s [] (.fail e)
  | asked (req : Req) (next) (s : σ) : After apply (.wait req next) s [.asked req] (.wait req next)
  | act {c next s l q} : After apply next (apply c s) l q →
      After apply (.act c next) s (.did c :: l) q
  | read {next s l q} : After apply (next s) s l q → After apply (.read next) s (.saw s :: l) q
  | got {req next answer s s' l q} : After apply (next answer) s' l q →
      After apply (.wait req next) s (.asked req :: .got req answer :: l) q

variable {apply : Cmd → σ → σ}

/-- The answer that a program waits for comes. -/
theorem After.resume {p q : Async σ Cmd Err Resp α} {s s' : σ}
    {l l' : List (Observation σ Cmd Err Resp)} {req : Req}
    {next : Except Err (Resp req) → Async σ Cmd Err Resp α} {answer : Except Err (Resp req)}
    (h : After apply p s l (.wait req next)) (h' : After apply (next answer) s' l' q) :
  After apply p s (l ++ .got req answer :: l') q
  := by
  generalize hw : Async.wait req next = w at h
  induction h with
  | done | fail => cases hw
  | asked req' next' =>
      cases hw
      apply After.got h'
  | act _ ih => apply After.act (ih hw)
  | read _ ih => apply After.read (ih hw)
  | got _ ih => apply After.got (ih hw)

/-! ### Running on -/

variable (apply) in
/-- The run of a program up to where it waits or ends: where it is then, the shared state, and what
was observed. -/
def advance : Async σ Cmd Err Resp α → σ →
    Async σ Cmd Err Resp α × σ × List (Observation σ Cmd Err Resp)
  | .done a, s => (.done a, s, [])
  | .fail e, s => (.fail e, s, [])
  | .act c next, s =>
      let (q, s', l) := advance next (apply c s)
      (q, s', .did c :: l)
  | .read next, s =>
      let (q, s', l) := advance (next s) s
      (q, s', .saw s :: l)
  | .wait req next, s => (.wait req next, s, [.asked req])

theorem after_advance (p : Async σ Cmd Err Resp α) (s : σ) :
  After apply p s (p.advance apply s).2.2 (p.advance apply s).1
  := by
  induction p generalizing s with
  | done a => apply After.done
  | fail e => apply After.fail
  | act c next ih => apply After.act (ih _)
  | read next ih => apply After.read (ih s s)
  | wait req next _ => apply After.asked

variable (apply) in
/-- The run of a program up to its end, each request being answered at once: where it ends, and what
was observed. -/
def answered (answer : (req : Req) → Except Err (Resp req)) : Async σ Cmd Err Resp α → σ →
    Async σ Cmd Err Resp α × List (Observation σ Cmd Err Resp)
  | .done a, _ => (.done a, [])
  | .fail e, _ => (.fail e, [])
  | .act c next, s =>
      let (q, l) := answered answer next (apply c s)
      (q, .did c :: l)
  | .read next, s =>
      let (q, l) := answered answer (next s) s
      (q, .saw s :: l)
  | .wait req next, s =>
      let (q, l) := answered answer (next (answer req)) s
      (q, .asked req :: .got req (answer req) :: l)

theorem after_answered (answer : (req : Req) → Except Err (Resp req))
    (p : Async σ Cmd Err Resp α) (s : σ) :
  After apply p s (p.answered apply answer s).2 (p.answered apply answer s).1
  := by
  induction p generalizing s with
  | done a => apply After.done
  | fail e => apply After.fail
  | act c next ih => apply After.act (ih _)
  | read next ih => apply After.read (ih s s)
  | wait req next ih => apply After.got (ih (answer req) s)

/-! ### The logic -/

variable (apply) in
/-- Begun after the observations `h`, on a shared state, the program observes nothing that breaks
`G`, and what is observed in the end satisfies `Q` or, with an exception, `E`. -/
def Upholds (G : List (Observation σ Cmd Err Resp) → Prop)
    (Q : α → List (Observation σ Cmd Err Resp) → σ → Prop)
    (E : Err → List (Observation σ Cmd Err Resp) → σ → Prop) :
    Async σ Cmd Err Resp α → List (Observation σ Cmd Err Resp) → σ → Prop
  | .done a, h, s => Q a h s
  | .fail e, h, s => E e h s
  | .act c next, h, s => G (h ++ [.did c]) ∧ Upholds G Q E next (h ++ [.did c]) (apply c s)
  | .read next, h, s => G (h ++ [.saw s]) ∧ Upholds G Q E (next s) (h ++ [.saw s]) s
  | .wait req next, h, _ => G (h ++ [.asked req]) ∧ ∀ answer s',
      G (h ++ [.asked req, .got req answer]) ∧
        Upholds G Q E (next answer) (h ++ [.asked req, .got req answer]) s'

section Logic

variable {G : List (Observation σ Cmd Err Resp) → Prop}
  {Q Q' : α → List (Observation σ Cmd Err Resp) → σ → Prop}
  {E E' : Err → List (Observation σ Cmd Err Resp) → σ → Prop}
  {h : List (Observation σ Cmd Err Resp)} {s : σ}

/-- What holds in the end may be weakened. -/
theorem Upholds.mono {p : Async σ Cmd Err Resp α} (hp : Upholds apply G Q E p h s)
    (hQ : ∀ a h s, Q a h s → Q' a h s) (hE : ∀ e h s, E e h s → E' e h s) :
  Upholds apply G Q' E' p h s
  := by
  induction p generalizing h s with
  | done a => apply hQ a h s hp
  | fail e => apply hE e h s hp
  | act c next ih => exact ⟨hp.1, ih hp.2⟩
  | read next ih => exact ⟨hp.1, ih s hp.2⟩
  | wait req next ih =>
      use hp.1
      intro answer s'
      exact ⟨(hp.2 answer s').1, ih answer (hp.2 answer s').2⟩

/-- More may have been observed before. -/
theorem Upholds.append {G' : List (Observation σ Cmd Err Resp) → Prop} {p : Async σ Cmd Err Resp α}
    {l : List (Observation σ Cmd Err Resp)} (hp : Upholds apply G' Q' E' p l s)
    (hG : ∀ l, G' l → G (h ++ l)) (hQ : ∀ a l s, Q' a l s → Q a (h ++ l) s)
    (hE : ∀ e l s, E' e l s → E e (h ++ l) s) :
  Upholds apply G Q E p (h ++ l) s
  := by
  induction p generalizing l s with
  | done a => apply hQ a l s hp
  | fail e => apply hE e l s hp
  | act c next ih =>
      obtain ⟨hdid, hnext⟩ := hp
      rw [Upholds, List.append_assoc]
      exact ⟨hG _ hdid, ih hnext⟩
  | read next ih =>
      obtain ⟨hsaw, hnext⟩ := hp
      rw [Upholds, List.append_assoc]
      exact ⟨hG _ hsaw, ih s hnext⟩
  | wait req next ih =>
      obtain ⟨hasked, hgot⟩ := hp
      simp only [Upholds, List.append_assoc]
      use hG _ hasked
      intro answer s'
      exact ⟨hG _ (hgot answer s').1, ih answer (hgot answer s').2⟩

/-- What a program upholds by itself it upholds after whatever was observed before. -/
theorem Upholds.framed {G' : List (Observation σ Cmd Err Resp) → Prop} {p : Async σ Cmd Err Resp α}
    (hp : Upholds apply G' Q' E' p [] s) (hG : ∀ l, G' l → G (h ++ l))
    (hQ : ∀ a l s, Q' a l s → Q a (h ++ l) s) (hE : ∀ e l s, E' e l s → E e (h ++ l) s) :
  Upholds apply G Q E p h s
  := by
  rw [← List.append_nil h]
  apply hp.append hG hQ hE

theorem upholds_bind {R : β → List (Observation σ Cmd Err Resp) → σ → Prop}
    {p : Async σ Cmd Err Resp α} {f : α → Async σ Cmd Err Resp β} :
  Upholds apply G R E (p >>= f) h s
    ↔ Upholds apply G (fun a h s => Upholds apply G R E (f a) h s) E p h s
  := by
  show Upholds apply G R E (bind p f) h s ↔ _
  induction p generalizing h s with
  | done a => exact Iff.rfl
  | fail e => exact Iff.rfl
  | act c next ih => simp only [bind, Upholds, ih]
  | read next ih => simp only [bind, Upholds, ih]
  | wait req next ih => simp only [bind, Upholds, ih]

theorem upholds_handle {p : Async σ Cmd Err Resp α} {f : Err → Async σ Cmd Err Resp α} :
  Upholds apply G Q E (p.handle f) h s
    ↔ Upholds apply G Q (fun e h s => Upholds apply G Q E (f e) h s) p h s
  := by
  induction p generalizing h s with
  | done a => exact Iff.rfl
  | fail e => exact Iff.rfl
  | act c next ih => simp only [handle, Upholds, ih]
  | read next ih => simp only [handle, Upholds, ih]
  | wait req next ih => simp only [handle, Upholds, ih]

theorem upholds_pure (a : α) :
  Upholds apply G Q E (pure a) h s ↔ Q a h s
  := Iff.rfl

/-- A command is done. -/
theorem upholds_act {c : Cmd} {Q : Unit → List (Observation σ Cmd Err Resp) → σ → Prop} :
  Upholds apply G Q E (perform c) h s ↔ G (h ++ [.did c]) ∧ Q () (h ++ [.did c]) (apply c s)
  := Iff.rfl

/-- A request is asked, and its answer got. -/
theorem upholds_request {req : Req}
    {Q : Resp req → List (Observation σ Cmd Err Resp) → σ → Prop} :
  Upholds apply G Q E (request req) h s ↔ G (h ++ [.asked req]) ∧ ∀ s',
    (∀ a, G (h ++ [.asked req, .got req (.ok a)]) ∧ Q a (h ++ [.asked req, .got req (.ok a)]) s') ∧
      ∀ e, G (h ++ [.asked req, .got req (.error e)]) ∧
        E e (h ++ [.asked req, .got req (.error e)]) s'
  := by
  constructor
  · rintro ⟨hasked, hgot⟩
    exact ⟨hasked, fun s' => ⟨fun a => hgot (.ok a) s', fun e => hgot (.error e) s'⟩⟩
  · rintro ⟨hasked, hgot⟩
    use hasked
    rintro (e | a) s'
    · apply (hgot s').2 e
    · apply (hgot s').1 a

theorem upholds_fromExcept {r : Except Err α} :
  Upholds apply G Q E (fromExcept r) h s
    ↔ (∀ a, r = .ok a → Q a h s) ∧ ∀ e, r = .error e → E e h s
  := by
  cases r with
  | ok a => simp [fromExcept, Upholds]
  | error e => simp [fromExcept, Upholds]

/-- A loop keeps what each of its rounds keeps. -/
theorem upholds_forEach {β : Type} {xs : List β} {f : β → Async σ Cmd Err Resp Unit}
    {I : List β → List (Observation σ Cmd Err Resp) → Prop} (hI : I xs h)
    (hround : ∀ x rest h s, I (x :: rest) h →
      Upholds apply G (fun _ h _ => I rest h) E (f x) h s) :
  Upholds apply G (fun _ h _ => I [] h) E (forEach xs f) h s
  := by
  induction xs generalizing h s with
  | nil => apply hI
  | cons x xs ih =>
      apply upholds_bind.mpr
      apply (hround x xs h s hI).mono
      · intro _ h' s' hI'
        apply ih hI'
      · intro e h' s' he
        apply he

/-- What is kept by asking and pausing is kept by doing so repeatedly. -/
theorem upholds_retry {ask : Async σ Cmd Err Resp (Option α)} {pause : Async σ Cmd Err Resp Unit}
    {giveUp : Async σ Cmd Err Resp α} {I : List (Observation σ Cmd Err Resp) → Prop}
    (hask : ∀ h s, I h → Upholds apply G (fun r h s => (∀ a, r = some a → Q a h s) ∧
      (r = none → Upholds apply G (fun _ h _ => I h) E pause h s)) E ask h s)
    (hgiveUp : ∀ h s, I h → Upholds apply G Q E giveUp h s) (hI : I h) (attempts : ℕ) :
  Upholds apply G Q E (retry ask pause giveUp attempts) h s
  := by
  induction attempts generalizing h s with
  | zero => apply hgiveUp h s hI
  | succ attempts ih =>
      apply upholds_bind.mpr
      apply (hask h s hI).mono
      · rintro (_ | a) h' s' ⟨hsome, hnone⟩
        · apply upholds_bind.mpr
          apply (hnone rfl).mono
          · intro _ h'' s'' hI'
            apply ih hI'
          · exact fun _ _ _ he => he
        · apply hsome a rfl
      · exact fun _ _ _ he => he

/-- What is upheld holds of all observations. -/
theorem Upholds.after {p q : Async σ Cmd Err Resp α} {l : List (Observation σ Cmd Err Resp)}
    (hp : Upholds apply G Q E p h s) (hG : G h) (hafter : After apply p s l q) :
  (∀ k, k <+: l → G (h ++ k)) ∧ (∀ a, q = .done a → ∃ s', Q a (h ++ l) s') ∧
    ∀ e, q = .fail e → ∃ s', E e (h ++ l) s'
  := by
  induction hafter generalizing h with
  | done a s =>
      refine ⟨?_, ?_, ?_⟩
      · intro k hk
        rw [List.prefix_nil.mp hk, List.append_nil]
        apply hG
      · rintro a' ⟨⟩
        rw [List.append_nil]
        use s, hp
      · rintro e ⟨⟩
  | fail e s =>
      refine ⟨?_, ?_, ?_⟩
      · intro k hk
        rw [List.prefix_nil.mp hk, List.append_nil]
        apply hG
      · rintro a ⟨⟩
      · rintro e' ⟨⟩
        rw [List.append_nil]
        use s, hp
  | asked req next s =>
      refine ⟨?_, by rintro _ ⟨⟩, by rintro _ ⟨⟩⟩
      intro k hk
      rcases List.prefix_cons_iff.mp hk with rfl | ⟨k, rfl, hk'⟩
      · simpa using hG
      · rw [List.prefix_nil.mp hk']
        apply hp.1
  | @act c next s l q _ ih =>
      obtain ⟨hpre, hdone, hfail⟩ := ih hp.2 hp.1
      refine ⟨?_, by simpa using hdone, by simpa using hfail⟩
      intro k hk
      rcases List.prefix_cons_iff.mp hk with rfl | ⟨k, rfl, hk'⟩
      · simpa using hG
      · simpa using hpre k hk'
  | @read next s l q _ ih =>
      obtain ⟨hpre, hdone, hfail⟩ := ih hp.2 hp.1
      refine ⟨?_, by simpa using hdone, by simpa using hfail⟩
      intro k hk
      rcases List.prefix_cons_iff.mp hk with rfl | ⟨k, rfl, hk'⟩
      · simpa using hG
      · simpa using hpre k hk'
  | @got req next answer s s' l q _ ih =>
      obtain ⟨hpre, hdone, hfail⟩ := ih (hp.2 answer s').2 (hp.2 answer s').1
      refine ⟨?_, by simpa using hdone, by simpa using hfail⟩
      intro k hk
      rcases List.prefix_cons_iff.mp hk with rfl | ⟨k, rfl, hk'⟩
      · simpa using hG
      · rcases List.prefix_cons_iff.mp hk' with rfl | ⟨k, rfl, hk''⟩
        · apply hp.1
        · simpa using hpre k hk''

end Logic

end Async
